import AccessRules.Builtin.Regex
import AccessRules.Proofs.Answers
import AccessRules.Proofs.Canonical

/-!
# Granting more never takes access away

An expression has no negation, so a decision can only gain when more names are granted. What is
granted counts only through the patterns: names that no pattern of an expression matches do not
matter to it, nor does the order of the names, nor how often one is granted.

## Main definitions

* `Decision.Matches`: a pattern matches a name
* `Decision.Covered`: a list of names serves every pattern of a text that another list serves
* `Decision.Alike`: two lists have the same names, as far as the patterns of a text can tell

## Main statements

* `evaluate_mono`: evaluation is monotone in the patterns that hold
* `holds_eq_true_iff`: when a pattern holds
* `granted_mono`: granting more never takes access away

## Implementation notes

The two runs that are compared ask about different patterns, and neither sees what the other
skips. So nothing is proved along the runs: both answer the truth value of the expression, which
does not depend on what is asked.
-/

namespace AccessRules

/-- **Evaluation is monotone in the patterns that hold.** -/
theorem Expr.evaluate_mono {holds holds' : String → Bool} {e : Expr}
    (h : ∀ p ∈ e.patterns, holds p = true → holds' p = true) (he : e.evaluate holds = true) :
    e.evaluate holds' = true := by
  induction e with
  | literal value => exact he
  | pattern text => exact h text (by simp [patterns]) he
  | and left right ihl ihr =>
    rw [evaluate_and, Bool.and_eq_true] at he ⊢
    exact ⟨ihl (fun p hp => h p (List.mem_append_left _ hp)) he.1,
      ihr (fun p hp => h p (List.mem_append_right _ hp)) he.2⟩
  | or left right ihl ihr =>
    rw [evaluate_or, Bool.or_eq_true] at he ⊢
    rcases he with he | he
    · exact .inl (ihl (fun p hp => h p (List.mem_append_left _ hp)) he)
    · exact .inr (ihr (fun p hp => h p (List.mem_append_right _ hp)) he)

namespace Decision

section

variable [RegexLibrary]

/-! ### Patterns and names -/

/-- A pattern matches a name: it has a glob, and the glob matches the name. Blanks around the
pattern do not count. -/
def Matches (pattern name : String) : Prop :=
  ∃ g, Glob.compile (Text.trim pattern) = .ok g ∧ g.isMatch name = true

theorem matches_iff {pattern name : String} :
    Matches pattern name ↔
      (Glob.compile (Text.trim pattern)).toOption.any (·.isMatch name) = true := by
  rw [Matches]
  cases Glob.compile (Text.trim pattern) <;> simp [Except.toOption]

instance (pattern name : String) : Decidable (Matches pattern name) :=
  decidable_of_iff _ matches_iff.symm

/-- A pattern that is no shortcut holds if it matches a granted name. -/
theorem holds_eq_true_iff {pattern : String} (h : shortcut? (Text.trim pattern) = none)
    (granted : List String) :
    holds granted pattern = true ↔ ∃ name ∈ granted, Matches pattern name := by
  simp only [holds, h, Matches]
  cases Glob.compile (Text.trim pattern) <;> simp [Except.toOption, Glob.matchesAny]

/-- The truth value of a shortcut does not depend on what is granted. -/
theorem holds_of_shortcut {pattern : String} {shortcut : Shortcut}
    (h : shortcut? (Text.trim pattern) = some shortcut) (granted granted' : List String) :
    holds granted pattern = holds granted' pattern := by
  rw [holds, holds, h]
  cases shortcut <;> rfl

theorem holds_mono {granted granted' : List String} {pattern : String}
    (h : (∃ name ∈ granted, Matches pattern name) → ∃ name ∈ granted', Matches pattern name)
    (hholds : holds granted pattern = true) : holds granted' pattern = true := by
  cases hshortcut : shortcut? (Text.trim pattern) with
  | none =>
    rw [holds_eq_true_iff hshortcut] at hholds ⊢
    exact h hholds
  | some shortcut => exact (holds_of_shortcut hshortcut granted' granted).trans hholds

/-! ### Lists of names -/

variable {settings : Settings} {granted granted' : List String} {text : String}

/-- Each pattern of the expression that a text spells matches one of the names `granted'` if it
matches one of the names `granted`. -/
def Covered (settings : Settings) (text : String) (granted granted' : List String) : Prop :=
  ∀ e, Expr.ofText settings text = .ok e → ∀ p ∈ e.patterns,
    (∃ name ∈ granted, Matches p name) → ∃ name ∈ granted', Matches p name

/-- Some pattern of the expression that a text spells matches the name. -/
def Concerns (settings : Settings) (text name : String) : Prop :=
  ∃ e, Expr.ofText settings text = .ok e ∧ ∃ p ∈ e.patterns, Matches p name

/-- Two lists have the same names, names that the text is not concerned with left aside. -/
def Alike (settings : Settings) (text : String) (granted granted' : List String) : Prop :=
  ∀ name, Concerns settings text name → (name ∈ granted ↔ name ∈ granted')

theorem covered_of_subset (h : granted ⊆ granted') (settings : Settings) (text : String) :
    Covered settings text granted granted' := by
  rintro e - p - ⟨name, hname, hmatches⟩
  exact ⟨name, h hname, hmatches⟩

theorem Alike.covered (h : Alike settings text granted granted') :
    Covered settings text granted granted' := by
  rintro e he p hp ⟨name, hname, hmatches⟩
  exact ⟨name, (h name ⟨e, he, p, hp, hmatches⟩).mp hname, hmatches⟩

theorem Alike.symm (h : Alike settings text granted granted') :
    Alike settings text granted' granted :=
  fun name hname => (h name hname).symm

/-- Order and repetitions do not matter, nor do names that the text is not concerned with. -/
theorem alike_of_mem_iff {extra : List String}
    (h : ∀ name, name ∈ granted' ↔ name ∈ granted ∨ name ∈ extra)
    (hextra : ∀ name ∈ extra, ¬ Concerns settings text name) :
    Alike settings text granted granted' := by
  intro name hname
  have hnot : name ∉ extra := fun hmem => hextra name hmem hname
  simp [h, hnot]

/-! ### Decisions -/

theorem decides_mono (h : Covered settings text granted granted')
    (hdecides : decides settings granted text = true) : decides settings granted' text = true := by
  rw [decides] at hdecides ⊢
  cases hliteral : literal? text with
  | some value => rwa [hliteral] at hdecides
  | none =>
    cases hread : Expr.ofText settings text with
    | error e =>
      rw [hliteral, hread] at hdecides
      contradiction
    | ok e =>
      rw [hliteral, hread] at hdecides
      exact Expr.evaluate_mono (fun p hp => holds_mono (h e hread p hp)) hdecides

theorem any_decides_mono {texts : List String}
    (h : ∀ text ∈ texts, Covered settings text granted granted')
    (hany : texts.any (decides settings granted) = true) :
    texts.any (decides settings granted') = true := by
  rw [List.any_eq_true] at hany ⊢
  obtain ⟨text, htext, hdecides⟩ := hany
  exact ⟨text, htext, decides_mono (h text htext) hdecides⟩

theorem all_decides_mono {texts : List String}
    (h : ∀ text ∈ texts, Covered settings text granted granted')
    (hall : texts.all (decides settings granted) = true) :
    texts.all (decides settings granted') = true := by
  rw [List.all_eq_true] at hall ⊢
  exact fun text htext => decides_mono (h text htext) (hall text htext)

/-- **Granting more never takes access away.** If every pattern of the texts that matches a name
in `granted` also matches one in `granted'`, which is so whenever all names of `granted` are in
`granted'`, then what is granted with the first list is granted with the second. If the lists
differ in their order, in repetitions and in names that no pattern matches, the decisions are the
same. Both hold of a text, of any of several texts and of all of them, and from whatever
caches. -/
theorem granted_mono (settings : Settings) (granted granted' texts : List String)
    (cache cache' : GlobCache) :
    ((∀ text ∈ texts, Covered settings text granted granted') →
      (∀ text ∈ texts, ((evaluateText settings granted text).run cache).value = true →
        ((evaluateText settings granted' text).run cache').value = true) ∧
      (((hasAny settings granted texts).run cache).value = true →
        ((hasAny settings granted' texts).run cache').value = true) ∧
      (((hasAll settings granted texts).run cache).value = true →
        ((hasAll settings granted' texts).run cache').value = true)) ∧
    ((∀ text ∈ texts, Alike settings text granted granted') →
      (∀ text ∈ texts, ((evaluateText settings granted text).run cache).value =
        ((evaluateText settings granted' text).run cache').value) ∧
      ((hasAny settings granted texts).run cache).value =
        ((hasAny settings granted' texts).run cache').value ∧
      ((hasAll settings granted texts).run cache).value =
        ((hasAll settings granted' texts).run cache').value) ∧
    (granted ⊆ granted' → ∀ text, Covered settings text granted granted') ∧
    ∀ (text : String) (extra : List String),
      (∀ name, name ∈ granted' ↔ name ∈ granted ∨ name ∈ extra) →
      (∀ name ∈ extra, ¬ Concerns settings text name) → Alike settings text granted granted' := by
  have htext := fun granted text cache =>
    (answers_evaluateText settings granted text).value_eq cache
  have hany := fun granted cache => (answers_hasAny settings granted texts).value_eq cache
  have hall := fun granted cache => (answers_hasAll settings granted texts).value_eq cache
  simp only [htext, hany, hall]
  refine ⟨fun h => ⟨fun text hmem => decides_mono (h text hmem), any_decides_mono h,
    all_decides_mono h⟩, fun h => ?_, fun h => covered_of_subset h settings,
    fun text extra => alike_of_mem_iff⟩
  have hthere : ∀ text ∈ texts, Covered settings text granted granted' :=
    fun text hmem => (h text hmem).covered
  have hback : ∀ text ∈ texts, Covered settings text granted' granted :=
    fun text hmem => (h text hmem).symm.covered
  refine ⟨fun text hmem => ?_, ?_, ?_⟩
  · exact Bool.eq_iff_iff.mpr ⟨decides_mono (hthere text hmem), decides_mono (hback text hmem)⟩
  · exact Bool.eq_iff_iff.mpr ⟨any_decides_mono hthere, any_decides_mono hback⟩
  · exact Bool.eq_iff_iff.mpr ⟨all_decides_mono hthere, all_decides_mono hback⟩

end

section

open scoped Builtin

/-- `a* && b` is granted with `ab` and `b`, hence with `b` and `abc`, and with `zz` in between. -/
theorem granted_mono_other_names :
    Covered .defaults "a* && b" ["ab", "b"] ["b", "abc"] ∧
      ((evaluateText .defaults ["b", "abc"] "a* && b").run (.empty 0)).value = true ∧
      ¬ Concerns .defaults "a* && b" "zz" ∧
      ((evaluateText .defaults ["b", "zz", "ab", "b"] "a* && b").run (.empty 0)).value = true := by
  let e : Expr := .and (.pattern "a*") (.pattern "b")
  have hnames : e.WellNamed := by decide
  have hread : Expr.ofText .defaults "a* && b" = .ok e :=
    Expr.ofText_text_of_wellNamed hnames .defaults
  have hliteral : literal? "a* && b" = none := by decide +kernel
  have hgranted : ((evaluateText .defaults ["ab", "b"] "a* && b").run (.empty 0)).value = true := by
    rw [(answers_evaluateText _ _ _).value_eq, decides, hliteral, hread]
    decide +kernel
  have hcovered : Covered .defaults "a* && b" ["ab", "b"] ["b", "abc"] := by
    intro e' he' p hp _
    obtain rfl : e = e' := Except.ok.inj (hread.symm.trans he')
    have hmatches : ∀ p ∈ e.patterns, Matches p "abc" ∨ Matches p "b" := by decide +kernel
    rcases hmatches p hp with h | h
    · exact ⟨"abc", by decide, h⟩
    · exact ⟨"b", by decide, h⟩
  have hconcerns : ¬ Concerns .defaults "a* && b" "zz" := by
    rintro ⟨e', he', p, hp, hmatches⟩
    obtain rfl : e = e' := Except.ok.inj (hread.symm.trans he')
    have hnone : ∀ p ∈ e.patterns, ¬ Matches p "zz" := by decide +kernel
    exact hnone p hp hmatches
  obtain ⟨hmore, -, -, -⟩ := granted_mono .defaults ["ab", "b"] ["b", "abc"] ["a* && b"]
    (.empty 0) (.empty 0)
  obtain ⟨-, hsame, -, halike⟩ := granted_mono .defaults ["ab", "b"] ["b", "zz", "ab", "b"]
    ["a* && b"] (.empty 0) (.empty 0)
  have hlists : Alike .defaults "a* && b" ["ab", "b"] ["b", "zz", "ab", "b"] :=
    halike "a* && b" ["zz"] (by grind) (by simpa using hconcerns)
  refine ⟨hcovered, ?_, hconcerns, ?_⟩
  · exact (hmore (by simpa using hcovered)).1 "a* && b" List.mem_cons_self hgranted
  · exact ((hsame (by simpa using hlists)).1 "a* && b" List.mem_cons_self).symm.trans hgranted

end

end Decision

end AccessRules
