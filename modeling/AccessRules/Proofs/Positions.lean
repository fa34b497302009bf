import AccessRules.Expr.OfText
import AccessRules.Proofs.OnePass
import AccessRules.Proofs.Spelling
import AccessRules.Proofs.Tokenization

/-!
# Reported positions point at what is reported

An error is raised three stages behind the text that it is about: the text is spelled normally,
scanned, and read. Its position counts bytes of the normal spelling, and there stands what the
error talks about.

## Main definitions

* `Spelling.Paired`: every operator character of a text has its double beside it
* `SyntaxError.Describes`: what an error says is true of a text that is cut at its position

## Main statements

* `paired_normalizeFrom`, `not_isOperatorChar_of_mem_scanFrom`: a normal spelling has no operator
  character that is unrecognized
* `scanFrom_before`: the tokens before a token are those of the text before it
* `ofText_error_describes`: a reported position points at what is reported

## Implementation notes

All that is needed of the scan is that it divides its text. A token then stands at its position,
and the division of the text up to a token is a division of that text, so it is its scan.
-/

namespace AccessRules

open Text

/-! ### Operators in the normal spelling -/

namespace Spelling

/-- Operator characters come in pairs. -/
inductive Paired : List Char → Prop where
  | nil : Paired []
  | other {c : Char} {cs : List Char} (hc : isOperatorChar c = false) (h : Paired cs) :
      Paired (c :: cs)
  | pair {c : Char} {cs : List Char} (hc : isOperatorChar c = true) (h : Paired cs) :
      Paired (c :: c :: cs)

/-- **In the normal spelling operator characters come in pairs.** -/
theorem paired_normalizeFrom (last : Option Char) (cs : List Char) :
    Paired (normalizeFrom last cs) := by
  induction cs generalizing last with
  | nil => exact .nil
  | cons c cs ih =>
    rw [normalizeFrom]
    split
    · next hc =>
      split
      · exact ih last
      · exact .pair hc (ih _)
    · next hc => exact .other (by simpa using hc) (ih _)

theorem Paired.tail {c : Char} {cs : List Char} (h : Paired (c :: cs))
    (hc : isOperatorChar c = false) : Paired cs := by
  cases h with
  | other _ h => exact h
  | pair hpair _ => simp [hc] at hpair

theorem Paired.exists_pair {c : Char} {cs : List Char} (h : Paired (c :: cs))
    (hc : isOperatorChar c = true) : ∃ ds, cs = c :: ds ∧ Paired ds := by
  cases h with
  | other hother _ => simp [hc] at hother
  | pair _ h => exact ⟨_, rfl, h⟩

theorem Paired.dropWhile {p : Char → Bool} (hp : ∀ c, p c = true → isOperatorChar c = false)
    {cs : List Char} (h : Paired cs) : Paired (cs.dropWhile p) := by
  induction cs with
  | nil => exact .nil
  | cons c cs ih =>
    rw [List.dropWhile_cons]
    split
    · next hc => exact ih (h.tail (hp c hc))
    · exact h

end Spelling

namespace Token

open Spelling

/-- **Where operator characters come in pairs, none is unrecognized.** -/
theorem not_isOperatorChar_of_mem_scanFrom {position : Nat} {cs : List Char} (h : Paired cs)
    {t : Token} (ht : t ∈ scanFrom position cs) {c : Char} (hc : t.kind = .unrecognized c) :
    isOperatorChar c = false := by
  fun_induction scanFrom position cs with
  | case1 position => simp at ht
  | case2 position d cs hblank ih => exact ih (h.tail (isOperatorChar_of_isBlank hblank)) ht
  | case3 position cs hblank ih | case4 position cs hblank hopening ih =>
    rcases List.mem_cons.mp ht with rfl | ht
    · simp at hc
    · exact ih (h.tail (by decide)) ht
  | case5 position d cs hblank hopening hclosing hword word ih =>
    rcases List.mem_cons.mp ht with rfl | ht
    · exact absurd hc (Kind.ofWord_ne_unrecognized word c)
    · have hrest := (h.tail (isOperatorChar_of_isWordChar hword)).dropWhile
        (p := isWordChar) fun _ => isOperatorChar_of_isWordChar
      exact ih hrest ht
  | case6 position d cs hblank hopening hclosing hword operator hoperator ih =>
    obtain ⟨hd, ds, rfl⟩ := operatorAt_eq_some hoperator
    rcases List.mem_cons.mp ht with rfl | ht
    · rcases hd with ⟨-, rfl⟩ | ⟨-, rfl⟩ <;> simp at hc
    · have hpair : isOperatorChar d = true := by
        rcases hd with ⟨rfl, -⟩ | ⟨rfl, -⟩ <;> rfl
      obtain ⟨ds', hds, hrest⟩ := h.exists_pair hpair
      obtain rfl : ds = ds' := (List.cons.inj hds).2
      exact ih hrest ht
  | case7 position d cs hblank hopening hclosing hword hoperator =>
    rw [List.mem_singleton.mp ht] at hc
    cases hc
    rw [← Bool.not_eq_true]
    intro hpair
    obtain ⟨ds, rfl, -⟩ := h.exists_pair hpair
    rcases isOperatorChar_eq_true.mp hpair with rfl | rfl <;> simp [operatorAt] at hoperator

/-! ### The text before a token -/

/-- What fits goes on fitting when the text ends earlier. -/
theorem Kind.Fits.of_append {kind : Kind} {rest cs : List Char} (h : kind.Fits (rest ++ cs)) :
    kind.Fits rest := by
  have hhead : ∀ c ∈ rest.head?, c ∈ (rest ++ cs).head? := fun c hc => by
    simp [List.head?_append, Option.mem_def.mp hc]
  cases kind with
  | opening | closing | and | or => trivial
  | literal value => exact fun c hc => h c (hhead c hc)
  | pattern text => exact ⟨h.1, fun c hc => h.2 c (hhead c hc)⟩
  | unrecognized char =>
    obtain ⟨hblank, hopening, hclosing, hword, hpair⟩ := h
    exact ⟨hblank, hopening, hclosing, hword, fun hc heq => hpair hc (hhead _ heq)⟩

/-- **A division of a text divides its first part**, if it has no token across the end of that
part. -/
theorem Tokenizes.of_append {start : Nat} {before after : List Char} {us ts : List Token}
    (h : Tokenizes start (before ++ after) (us ++ ts))
    (hus : ∀ u ∈ us, u.stop ≤ start + extent before)
    (hts : ∀ t ∈ ts, start + extent before ≤ t.position) : Tokenizes start before us := by
  refine ⟨fun u hu => ?_, (List.pairwise_append.mp h.increasing).1,
    (List.pairwise_append.mp h.disjoint).1, fun position c rest hc hblank => ?_,
    (List.pairwise_append.mp h.unrecognized_last).1⟩
  · obtain ⟨rest, hstands, hfits⟩ := h.stands u (List.mem_append_left _ hu)
    obtain ⟨rest', rfl, hstands'⟩ := hstands.of_append_right (hus u hu)
    exact ⟨rest', hstands', hfits.of_append⟩
  · have hinside : position < start + extent before := by
      have hend := hc.end_le
      have hsize := c.utf8Size_pos
      rw [extent_cons] at hend
      omega
    -- a token of the second part would begin too late
    have hmem : ∀ t ∈ us ++ ts, t.position ≤ position → t ∈ us := by
      intro t ht hle
      rcases List.mem_append.mp ht with hu | ht
      · exact hu
      · exact absurd (hts t ht) (Nat.not_le.mpr (Nat.lt_of_le_of_lt hle hinside))
    rcases h.covered position c _ (hc.append_right after) hblank with
      ⟨t, ht, hle, hlt⟩ | ⟨t, ht, hunrecognized, hle⟩
    · exact .inl ⟨t, hmem t ht hle, hle, hlt⟩
    · exact .inr ⟨t, hmem t ht (Nat.le_trans (Nat.le_add_right _ _) hle), hunrecognized, hle⟩

/-- **The tokens before a token are those of the text before it.** -/
theorem scanFrom_before {start : Nat} {before after : List Char} {us ts : List Token} {t : Token}
    (h : Tokenizes start (before ++ after) (us ++ t :: ts))
    (ht : start + extent before = t.position) : scanFrom start before = us := by
  refine (h.of_append (fun u hu => ?_) fun v hv => ?_).scanFrom_eq
  · rw [ht]
    exact (List.pairwise_append.mp h.disjoint).2.2 u hu t List.mem_cons_self
  · rw [ht]
    rcases List.mem_cons.mp hv with rfl | hv
    · exact Nat.le_refl _
    · exact Nat.le_of_lt
        ((List.pairwise_cons.mp (List.pairwise_append.mp h.increasing).2.1).1 v hv)

end Token

/-! ### What errors say of the text -/

/-- `e.Describes limit before after`: what the error `e` says is true of the text `before ++ after`
at the place between the two parts. -/
def SyntaxError.Describes (limit : Nat) (before after : List Char) : SyntaxError → Prop
  | unexpectedToken found _ => found ≠ "" ∧ found.toList <+: after
  | unclosedGroup _ => after.head? = some '('
  | unrecognizedCharacter char _ =>
    after.head? = some char ∧ isBlank char = false ∧ Token.isWordChar char = false ∧
      char ≠ '(' ∧ char ≠ ')' ∧ char ≠ '|' ∧ char ≠ '&'
  | trailingInput _ =>
    (∃ c ∈ after.head?, isBlank c = false) ∧
      ∃ e, Expr.ofTokens limit (Token.scan (String.ofList before)) = .ok e
  | empty | unexpectedEnd | tooLong _ _ | tooDeep _ => False

/-- Something stands where an error that describes a text points. -/
theorem SyntaxError.Describes.ne_nil {limit : Nat} {before after : List Char} {e : SyntaxError}
    (h : e.Describes limit before after) : after ≠ [] := by
  rintro rfl
  cases e with
  | unexpectedToken found position =>
    obtain ⟨hne, hfound⟩ := h
    exact hne (String.toList_eq_nil_iff.mp (List.prefix_nil.mp hfound))
  | unclosedGroup position => simp [Describes] at h
  | unrecognizedCharacter char position => simp [Describes] at h
  | trailingInput position => simp [Describes] at h
  | empty | unexpectedEnd | tooLong _ _ | tooDeep _ => exact h

namespace Expr

open Progress Spelling

section Described

variable {limit : Nat} {before rest : List Char} {t : Token}

/-- A character that is unrecognized in a normal spelling is described by what it is not. -/
theorem describes_unrecognized {char : Char} (hfits : (Token.Kind.unrecognized char).Fits rest)
    (hoperator : isOperatorChar char = false) (position : Nat) :
    (SyntaxError.unrecognizedCharacter char position).Describes limit before (char :: rest) := by
  obtain ⟨hblank, hopening, hclosing, hword, -⟩ := hfits
  have hne : char ≠ '|' ∧ char ≠ '&' := by
    rw [← Bool.not_eq_true, isOperatorChar_eq_true] at hoperator
    exact not_or.mp hoperator
  exact ⟨rfl, hblank, hword, hopening, hclosing, hne⟩

/-- A token that has no place is described by its text. -/
theorem describes_misplaced (hfits : t.kind.Fits rest)
    (hoperator : ∀ c, t.kind = .unrecognized c → isOperatorChar c = false) :
    (misplaced t).Describes limit before (t.kind.text.toList ++ rest) := by
  obtain ⟨c, s, htext, -⟩ := hfits.exists_cons
  have hne : t.kind.text ≠ "" := by
    intro hempty
    simp [hempty] at htext
  obtain ⟨kind, position⟩ := t
  cases kind with
  | unrecognized char =>
    rw [Token.Kind.text, String.toList_singleton]
    exact describes_unrecognized hfits (hoperator char rfl) position
  | opening | closing | and | or | literal _ | pattern _ =>
    exact ⟨hne, List.prefix_append _ rest⟩

/-- A token behind a complete expression is described by what stands before it. -/
theorem describes_trailing (hfits : t.kind.Fits rest)
    (hoperator : ∀ c, t.kind = .unrecognized c → isOperatorChar c = false)
    (hcomplete : ∃ e, ofTokens limit (Token.scan (String.ofList before)) = .ok e) :
    (trailing t).Describes limit before (t.kind.text.toList ++ rest) := by
  obtain ⟨c, s, htext, hc⟩ := hfits.exists_cons
  have hhead : ∃ c ∈ (t.kind.text.toList ++ rest).head?, isBlank c = false :=
    ⟨c, by simp [htext], hc⟩
  obtain ⟨kind, position⟩ := t
  cases kind with
  | unrecognized char =>
    rw [Token.Kind.text, String.toList_singleton]
    exact describes_unrecognized hfits (hoperator char rfl) position
  | opening | closing | and | or | literal _ | pattern _ => exact ⟨hhead, hcomplete⟩

end Described

theorem position?_misplaced (t : Token) : (misplaced t).position? = some t.position := by
  obtain ⟨kind, position⟩ := t
  cases kind <;> rfl

theorem position?_trailing (t : Token) : (trailing t).position? = some t.position := by
  obtain ⟨kind, position⟩ := t
  cases kind <;> rfl

/-- Every token of a text cuts it at its position. -/
theorem exists_cut {cs : List Char} (hcs : Paired cs) {t : Token} (ht : t ∈ Token.scanFrom 0 cs) :
    ∃ before rest, cs = before ++ (t.kind.text.toList ++ rest) ∧ extent before = t.position ∧
      t.kind.Fits rest ∧ ∀ c, t.kind = .unrecognized c → isOperatorChar c = false := by
  obtain ⟨rest, ⟨before, hbefore, hextent⟩, hfits⟩ := (Token.tokenizes_scanFrom 0 cs).stands t ht
  exact ⟨before, rest, hbefore, by omega, hfits,
    fun _ hc => Token.not_isOperatorChar_of_mem_scanFrom hcs ht hc⟩

/-- If the pass stands behind a complete expression at a token, the text before the token is a
complete expression by itself. -/
theorem exists_ofTokens_eq_ok_before {limit : Nat} {before after : List Char}
    {pre post : List Token} {t : Token}
    (hts : Token.scanFrom 0 (before ++ after) = pre ++ t :: post)
    (hextent : extent before = t.position) (hpre : start.run limit pre = .ok (haveTerm [])) :
    ∃ e, ofTokens limit (Token.scan (String.ofList before)) = .ok e := by
  have hdivision := Token.tokenizes_scanFrom 0 (before ++ after)
  rw [hts] at hdivision
  rw [Token.scan, String.toList_ofList, Token.scanFrom_before hdivision (by omega)]
  exact exists_ofTokens_eq_ok_of_run hpre

/-- An error about the tokens of a text describes the text at its position. -/
theorem describes_of_ofTokens {limit position : Nat} {cs : List Char} {e : SyntaxError}
    (hcs : Paired cs) (h : ofTokens limit (Token.scanFrom 0 cs) = .error e)
    (hposition : e.position? = some position) :
    ∃ before after, cs = before ++ after ∧ extent before = position ∧
      e.Describes limit before after := by
  rcases error_of_ofTokens h with ⟨-, rfl⟩ | ⟨p, hrun, hfinish⟩ | ⟨pre, t, post, p, hts, hpre, ht⟩
  · simp [SyntaxError.position?] at hposition
  · match p, hfinish with
    | needTerm _, rfl => simp [SyntaxError.position?] at hposition
    | haveTerm (_ :: outer), rfl =>
      cases hposition
      -- the group was opened by a token, and that token stands at the reported position
      rcases opened_of_run hrun position List.mem_cons_self with hnone | ⟨t, ht, hkind, rfl⟩
      · simp [start, opened] at hnone
      · obtain ⟨before, rest, rfl, hextent, -⟩ := exists_cut hcs ht
        rw [hkind]
        exact ⟨before, _, rfl, hextent, rfl⟩
  · have hmem : t ∈ Token.scanFrom 0 cs := by
      rw [hts]
      simp
    obtain ⟨before, rest, rfl, hextent, hfits, hoperator⟩ := exists_cut hcs hmem
    rcases error_of_step ht with rfl | ⟨rfl, rfl⟩ | ⟨rfl, -⟩
    · rw [position?_misplaced] at hposition
      cases hposition
      exact ⟨before, _, rfl, hextent, describes_misplaced hfits hoperator⟩
    · rw [position?_trailing] at hposition
      cases hposition
      exact ⟨before, _, rfl, hextent, describes_trailing hfits hoperator
        (exists_ofTokens_eq_ok_before hts hextent hpre)⟩
    · simp [SyntaxError.position?] at hposition

/-- **Reported positions point at what is reported.** If reading a text fails with an error that
has a position, then that position is a character boundary inside the normal spelling of the text,
and what the error says is true of the two parts into which it cuts the normal spelling. -/
theorem ofText_error_describes {settings : Settings} {raw : String} {e : SyntaxError}
    {position : Nat} (h : ofText settings raw = .error e)
    (hposition : e.position? = some position) :
    position < (normalize raw).utf8ByteSize ∧
      ∃ before after, (normalize raw).toList = before ++ after ∧ extent before = position ∧
        e.Describes settings.maxNesting.toNat before after := by
  rw [ofText] at h
  split at h
  · cases h
    simp [SyntaxError.position?] at hposition
  · have hpaired : Paired (normalize raw).toList := by
      rw [toList_normalize]
      exact paired_normalizeFrom none _
    obtain ⟨before, after, htext, hextent, hdescribes⟩ := describes_of_ofTokens hpaired h hposition
    refine ⟨?_, before, after, htext, hextent, hdescribes⟩
    have hafter : extent after ≠ 0 := fun hzero => hdescribes.ne_nil (extent_eq_zero.mp hzero)
    rw [← extent_toList, htext, extent_append]
    omega

/-- In the normal spelling of `a|b)` the parenthesis follows a complete expression. It stands at
byte 4, and in the text as it was supplied at byte 3. -/
theorem ofText_error_describes_trailing_parenthesis :
    ofText .defaults "a|b)" = .error (.trailingInput 4) ∧
      ∃ before after, (normalize "a|b)").toList = before ++ after ∧ extent before = 4 ∧
        (SyntaxError.trailingInput 4).Describes 64 before after := by
  have htokens : tokensOf "a|b)" =
      [⟨.pattern "a", 0⟩, ⟨.or, 1⟩, ⟨.pattern "b", 3⟩, ⟨.closing, 4⟩] := by decide +kernel
  have herror : ofText .defaults "a|b)" = .error (.trailingInput 4) := by
    rw [ofText, if_neg (by decide +kernel), htokens]
    exact ofTokens_eq_error_of_verdict (List.cons_ne_nil _ _) rfl
  exact ⟨herror, (ofText_error_describes herror rfl).2⟩

end Expr

end AccessRules
