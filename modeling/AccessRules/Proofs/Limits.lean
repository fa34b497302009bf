import AccessRules.Builtin.Regex
import AccessRules.Proofs.Lexemes

/-!
# Limits only refuse

An engine bounds the length of a text and the number of groups that are open at once. Under a lower
bound more texts are refused, but none is read as anything else: where the reader is not stopped
by the bound, it finds what it would find under any higher one, the same tree or the same error.

## Main definitions

* `CutShort`: a result is another one, or it is the error that a bound raises

## Main statements

* `ofTokens_cutShort`: the reader under two bounds on the nesting
* `ofText_unique`: two settings that accept a text read the same tree
* `ofText_limits`: a text under two settings

## Implementation notes

The readers go on from what they have found so far, so two runs stay together only as long as they
have found the same. `CutShort.bind` says so once: two chains of computations stay together if their
links do. That is the one place where it matters that the run under the lower bound, once it is
stopped, stays stopped.
-/

namespace AccessRules

namespace Expr

open SyntaxError (tooLong tooDeep)

/-- The result `r` is `r'`, unless it was cut short with the error `stop`. -/
def CutShort {α : Type} (stop : SyntaxError) (r r' : Except SyntaxError α) : Prop :=
  r = r' ∨ r = .error stop

variable {α β : Type} {stop : SyntaxError} {limit limit' : Nat}

theorem CutShort.refl (stop : SyntaxError) (r : Except SyntaxError α) : CutShort stop r r :=
  .inl rfl

/-- **Two chains stay together if their links do.** -/
theorem CutShort.bind {r r' : Except SyntaxError α} {next next' : α → Except SyntaxError β}
    (h : CutShort stop r r') (hnext : ∀ a, r = .ok a → CutShort stop (next a) (next' a)) :
    CutShort stop (r.bind next) (r'.bind next') := by
  rcases h with rfl | rfl
  · cases r with
    | error e => exact .refl stop _
    | ok a => exact hnext a rfl
  · exact .inr rfl

/-- The readers stay together under two bounds, until the lower one stops them. -/
private theorem readers_cutShort (h : limit ≤ limit') : ∀ ts,
    (∀ depth, CutShort (tooDeep limit) (disjunction limit depth ts)
        (disjunction limit' depth ts)) ∧
      (∀ depth left, CutShort (tooDeep limit) (disjuncts limit depth left ts)
        (disjuncts limit' depth left ts)) ∧
      (∀ depth, CutShort (tooDeep limit) (conjunction limit depth ts)
        (conjunction limit' depth ts)) ∧
      (∀ depth left, CutShort (tooDeep limit) (conjuncts limit depth left ts)
        (conjuncts limit' depth left ts)) ∧
      ∀ depth, CutShort (tooDeep limit) (term limit depth ts) (term limit' depth ts) := by
  refine reader_induction limit ?disjunction ?disjuncts ?conjunction ?conjuncts ?term
  case disjunction =>
    intro depth ts hfirst hmore
    rw [disjunction_eq, disjunction_eq]
    exact hfirst.bind fun p hp => hmore p.1 p.2 hp
  case disjuncts =>
    intro depth left ts hnext
    cases ts with
    | nil =>
      rw [disjuncts_nil, disjuncts_nil]
      exact .refl _ _
    | cons t us =>
      rw [disjuncts_cons, disjuncts_cons]
      split
      · next ht =>
        obtain ⟨hfirst, hmore⟩ := hnext t us rfl ht
        exact hfirst.bind fun p hp => hmore p.1 p.2 hp
      · exact .refl _ _
  case conjunction =>
    intro depth ts hfirst hmore
    rw [conjunction_eq, conjunction_eq]
    exact hfirst.bind fun p hp => hmore p.1 p.2 hp
  case conjuncts =>
    intro depth left ts hnext
    cases ts with
    | nil =>
      rw [conjuncts_nil, conjuncts_nil]
      exact .refl _ _
    | cons t us =>
      rw [conjuncts_cons, conjuncts_cons]
      split
      · next ht =>
        obtain ⟨hfirst, hmore⟩ := hnext t us rfl ht
        exact hfirst.bind fun p hp => hmore p.1 p.2 hp
      · exact .refl _ _
  case term =>
    intro depth ts hgroup
    cases ts with
    | nil =>
      rw [term_nil, term_nil]
      exact .refl _ _
    | cons t us =>
      obtain ⟨kind, position⟩ := t
      rw [term_cons, term_cons]
      cases kind with
      | literal _ | pattern _ | closing | and | or | unrecognized _ => exact .refl _ _
      | opening =>
        -- the one place where the bound is looked at
        simp only [group_eq]
        by_cases hfull : limit ≤ depth
        · rw [if_pos hfull]
          exact .inr rfl
        · have hdepth : depth < limit := Nat.lt_of_not_le hfull
          rw [if_neg hfull, if_neg (Nat.not_le.mpr (Nat.lt_of_lt_of_le hdepth h))]
          exact (hgroup _ us rfl rfl hdepth).bind fun _ _ => .refl _ _

/-- **Under a lower bound on the nesting the reader finds the same or is stopped by the bound.** -/
theorem ofTokens_cutShort (h : limit ≤ limit') (ts : List Token) :
    CutShort (tooDeep limit) (ofTokens limit ts) (ofTokens limit' ts) := by
  rw [ofTokens, ofTokens]
  split
  · exact .refl _ _
  · rcases (readers_cutShort h ts).1 0 with hsame | hstop
    · rw [hsame]
      exact .refl _ _
    · rw [hstop]
      exact .inr rfl

/-- No text is read as two trees, under whatever settings. -/
theorem ofText_unique {settings settings' : Settings} {raw : String} {e e' : Expr}
    (h : ofText settings raw = .ok e) (h' : ofText settings' raw = .ok e') : e = e' := by
  obtain ⟨-, m, -, hderives⟩ := derives_of_ofText h
  obtain ⟨-, n, -, hderives'⟩ := derives_of_ofText h'
  exact hderives.tree_unique hderives'

end Expr

/-- A text that two settings accept is decided alike under both. -/
theorem Decision.decides_eq_of_accepted [RegexLibrary] {settings settings' : Settings}
    {raw : String} {e e' : Expr} (h : Expr.ofText settings raw = .ok e)
    (h' : Expr.ofText settings' raw = .ok e') (granted : List String) :
    decides settings granted raw = decides settings' granted raw := by
  rw [decides_of_ofText h, decides_of_ofText h', Expr.ofText_unique h h']

namespace Expr

open SyntaxError (tooLong tooDeep)

/-- **Limits only refuse, and never change what a text means.** Under limits that are no higher a
text is read as under the others, with the same tree or the same error, or it is refused for its
length or for its nesting, and then the error names the lower limit. A text that two settings
accept, however their limits compare, is read as the same tree and decided alike for all granted
names, whatever the caches hold. -/
theorem ofText_limits [RegexLibrary] (raw : String) (settings settings' : Settings) :
    (settings.maxLength ≤ settings'.maxLength → settings.maxNesting ≤ settings'.maxNesting →
      ofText settings raw = ofText settings' raw ∨
      ofText settings raw = .error (tooLong raw.utf8ByteSize settings.maxLength.toNat) ∨
      ofText settings raw = .error (tooDeep settings.maxNesting.toNat)) ∧
    ∀ e e', ofText settings raw = .ok e → ofText settings' raw = .ok e' →
      e = e' ∧ ∀ granted cache cache',
        ((Decision.evaluateText settings granted raw).run cache).value =
          ((Decision.evaluateText settings' granted raw).run cache').value := by
  refine ⟨fun hlength hnesting => ?_, fun e e' h h' =>
    ⟨ofText_unique h h', fun granted cache cache' => ?_⟩⟩
  · have hlength' := UInt64.le_iff_toNat_le.mp hlength
    rw [ofText, ofText]
    by_cases hlong : settings.maxLength.toNat < raw.utf8ByteSize
    · rw [if_pos hlong]
      exact .inr (.inl rfl)
    · rw [if_neg hlong, if_neg (by omega)]
      rcases ofTokens_cutShort (UInt64.le_iff_toNat_le.mp hnesting) (tokensOf raw) with
        hsame | hstop
      · exact .inl hsame
      · exact .inr (.inr hstop)
  · rw [(Decision.answers_evaluateText settings granted raw).value_eq,
      (Decision.answers_evaluateText settings' granted raw).value_eq,
      Decision.decides_eq_of_accepted h h']

section

open scoped Builtin

/-- `((a))` is accepted where two groups may be open at once, hence also under higher limits, and
there it is decided alike. -/
theorem ofText_limits_two_groups :
    ofText ⟨0, 5, 2⟩ "((a))" = .ok (.pattern "a") ∧
      ofText ⟨256, 9, 7⟩ "((a))" = .ok (.pattern "a") ∧
      ∀ granted cache cache',
        ((Decision.evaluateText ⟨0, 5, 2⟩ granted "((a))").run cache).value =
          ((Decision.evaluateText ⟨256, 9, 7⟩ granted "((a))").run cache').value := by
  have htokens : tokensOf "((a))" =
      [⟨.opening, 0⟩, ⟨.opening, 1⟩, ⟨.pattern "a", 2⟩, ⟨.closing, 3⟩, ⟨.closing, 4⟩] := by
    decide +kernel
  have hinner : Derives .term 1 (.pattern "a")
      [⟨.opening, 1⟩, ⟨.pattern "a", 2⟩, ⟨.closing, 3⟩] :=
    .group rfl (Derives.disjunction_of_term (.pattern rfl)) rfl
  have hderives : Derives .disjunction 2 (.pattern "a") (tokensOf "((a))") := by
    rw [htokens]
    exact Derives.disjunction_of_term (.group rfl hinner.disjunction_of_term rfl)
  have hlow : ofText ⟨0, 5, 2⟩ "((a))" = .ok (.pattern "a") :=
    ofText_of_derives (by decide +kernel) hderives (by decide)
  have hhigh : ofText ⟨256, 9, 7⟩ "((a))" = .ok (.pattern "a") := by
    rcases (ofText_limits "((a))" ⟨0, 5, 2⟩ ⟨256, 9, 7⟩).1 (by decide) (by decide) with
      hsame | hlong | hdeep
    · exact hsame.symm.trans hlow
    · cases hlow.symm.trans hlong
    · cases hlow.symm.trans hdeep
  exact ⟨hlow, hhigh, ((ofText_limits "((a))" ⟨0, 5, 2⟩ ⟨256, 9, 7⟩).2 _ _ hlow hhigh).2⟩

end

end Expr

end AccessRules
