import AccessRules.Proofs.Reading

/-!
# Reading in one pass

Whether a list of tokens is an expression can be said from left to right, token by token. One has
to remember no more than whether a term has to follow and which groups are open. The readers of
phrases call each other instead, and they come to the same verdict: they fail where the pass fails,
with the same error.

## Main definitions

* `Expr.Progress`: what is remembered of the tokens so far
* `Progress.step`, `Progress.run`, `Progress.finish`: what one token, many tokens and the end of
  the tokens do
* `Progress.verdict`: what becomes of a list of tokens

## Main statements

* `disjunction_stops`, `conjunction_stops`: no operator follows what a reader of disjunctions has
  taken, and no `&&` what a reader of conjunctions has taken
* `verdict_needTerm`: a reader of disjunctions comes as far as the pass
* `map_ofTokens_eq_verdict`: a list of tokens is accepted or refused as the pass says
* `error_of_ofTokens`: an error is raised at the end of the tokens or at one of them

## Implementation notes

The pass builds no tree, so its verdict is `()` or an error. It remembers the open groups by the
positions of their parentheses, the innermost first, and their number is the depth of the readers.
-/

namespace AccessRules.Expr

open SyntaxError (empty unexpectedEnd unexpectedToken unclosedGroup trailingInput
  unrecognizedCharacter tooDeep)

/-- What is remembered of the tokens so far. -/
inductive Progress where
  /-- A term has to follow, inside the groups that were opened at these positions. -/
  | needTerm (opened : List Nat)
  /-- A term stands right before, inside the groups that were opened at these positions. -/
  | haveTerm (opened : List Nat)
  deriving DecidableEq, Repr

namespace Progress

/-- Before the first token. -/
def start : Progress :=
  needTerm []

/-- What a token does where a term has to follow. -/
def stepTerm (limit : Nat) (opened : List Nat) (t : Token) : Except SyntaxError Progress :=
  match t.kind with
  | .literal _ | .pattern _ => .ok (haveTerm opened)
  | .opening =>
    if limit ≤ opened.length then .error (tooDeep limit)
    else .ok (needTerm (t.position :: opened))
  | _ => .error (misplaced t)

/-- What a token does right behind a term. -/
def stepBehind (opened : List Nat) (t : Token) : Except SyntaxError Progress :=
  if t.kind = .and ∨ t.kind = .or then .ok (needTerm opened)
  else
    match opened with
    | [] => .error (trailing t)
    | _ :: outer => if t.kind = .closing then .ok (haveTerm outer) else .error (misplaced t)

/-- What one token does. -/
def step (limit : Nat) : Progress → Token → Except SyntaxError Progress
  | needTerm opened => stepTerm limit opened
  | haveTerm opened => stepBehind opened

/-- What the end of the tokens does. -/
def finish : Progress → Except SyntaxError Unit
  | needTerm _ => .error unexpectedEnd
  | haveTerm [] => .ok ()
  | haveTerm (position :: _) => .error (unclosedGroup position)

/-- What many tokens do. -/
def run (limit : Nat) (p : Progress) (ts : List Token) : Except SyntaxError Progress :=
  ts.foldlM (step limit) p

/-- What becomes of the tokens that are left. -/
def verdict (limit : Nat) (p : Progress) (ts : List Token) : Except SyntaxError Unit :=
  p.run limit ts >>= finish

variable {limit : Nat}

/-! ### What a step can do -/

theorem step_haveTerm_operator {opened : List Nat} {t : Token} (h : t.kind = .and ∨ t.kind = .or) :
    (haveTerm opened).step limit t = .ok (needTerm opened) := by
  rw [step, stepBehind.eq_def, if_pos h]

theorem step_haveTerm_nil {t : Token} (h : ¬ (t.kind = .and ∨ t.kind = .or)) :
    (haveTerm []).step limit t = .error (trailing t) := by
  rw [step, stepBehind, if_neg h]

theorem step_haveTerm_cons {position : Nat} {outer : List Nat} {t : Token}
    (h : ¬ (t.kind = .and ∨ t.kind = .or)) :
    (haveTerm (position :: outer)).step limit t =
      if t.kind = .closing then .ok (haveTerm outer) else .error (misplaced t) := by
  rw [step, stepBehind, if_neg h]

/-- The groups that are open. -/
def opened : Progress → List Nat
  | needTerm opened | haveTerm opened => opened

/-- A token that is taken opens a group or leaves no more groups open than there were. -/
theorem opened_of_step {p q : Progress} {t : Token} (h : p.step limit t = .ok q) :
    t.kind = .opening ∧ q.opened = t.position :: p.opened ∨ q.opened ⊆ p.opened := by
  cases p with
  | needTerm opened =>
    rw [step, stepTerm] at h
    split at h
    · cases h
      exact .inr (List.Subset.refl _)
    · cases h
      exact .inr (List.Subset.refl _)
    · next ht =>
      split at h
      · simp at h
      · cases h
        exact .inl ⟨ht, rfl⟩
    · simp at h
  | haveTerm opened =>
    refine .inr ?_
    by_cases ht : t.kind = .and ∨ t.kind = .or
    · rw [step_haveTerm_operator ht] at h
      cases h
      exact List.Subset.refl _
    · cases opened with
      | nil => simp [step_haveTerm_nil ht] at h
      | cons position outer =>
        rw [step_haveTerm_cons ht] at h
        split at h
        · cases h
          exact List.subset_cons_self position outer
        · simp at h

/-- A token that is refused has no place where it stands, follows a complete expression or opens
one group too many. -/
theorem error_of_step {p : Progress} {t : Token} {e : SyntaxError}
    (h : p.step limit t = .error e) :
    e = misplaced t ∨ e = trailing t ∧ p = haveTerm [] ∨ e = tooDeep limit ∧ t.kind = .opening := by
  cases p with
  | needTerm opened =>
    rw [step, stepTerm] at h
    split at h
    · simp at h
    · simp at h
    · next ht =>
      split at h
      · cases h
        exact .inr (.inr ⟨rfl, ht⟩)
      · simp at h
    · cases h
      exact .inl rfl
  | haveTerm opened =>
    by_cases ht : t.kind = .and ∨ t.kind = .or
    · simp [step_haveTerm_operator ht] at h
    · cases opened with
      | nil =>
        rw [step_haveTerm_nil ht] at h
        cases h
        exact .inr (.inl ⟨rfl, rfl⟩)
      | cons position outer =>
        rw [step_haveTerm_cons ht] at h
        split at h
        · simp at h
        · cases h
          exact .inl rfl

/-! ### Runs and verdicts -/

@[simp] theorem run_nil (p : Progress) : p.run limit [] = .ok p := rfl

theorem run_cons (p : Progress) (t : Token) (ts : List Token) :
    p.run limit (t :: ts) = p.step limit t >>= fun q => q.run limit ts :=
  List.foldlM_cons

theorem run_append (p : Progress) (ts us : List Token) :
    p.run limit (ts ++ us) = p.run limit ts >>= fun q => q.run limit us :=
  List.foldlM_append

@[simp] theorem verdict_nil (p : Progress) : p.verdict limit [] = p.finish := rfl

theorem verdict_cons (p : Progress) (t : Token) (ts : List Token) :
    p.verdict limit (t :: ts) = p.step limit t >>= fun q => q.verdict limit ts := by
  rw [verdict, run_cons]
  exact bind_assoc ..

theorem verdict_cons_of_step {p q : Progress} {t : Token} (h : p.step limit t = .ok q)
    (ts : List Token) : p.verdict limit (t :: ts) = q.verdict limit ts := by
  rw [verdict_cons, h]
  rfl

theorem verdict_cons_of_error {p : Progress} {t : Token} {e : SyntaxError}
    (h : p.step limit t = .error e) (ts : List Token) :
    p.verdict limit (t :: ts) = .error e := by
  rw [verdict_cons, h]
  rfl

theorem verdict_append (p : Progress) (ts us : List Token) :
    p.verdict limit (ts ++ us) = p.run limit ts >>= fun q => q.verdict limit us := by
  rw [verdict, run_append]
  exact bind_assoc ..

end Progress

/-! ### Where the readers stop -/

/-- A reading that succeeds has stopped at a token with the property `p`, or at the end. -/
def Stops (p : Token → Prop) (r : Reading) : Prop :=
  ∀ e rest, r = .ok (e, rest) → ∀ t ∈ rest.head?, p t

theorem stops_nil {p : Token → Prop} (e : Expr) : Stops p (.ok (e, [])) := by
  rintro _ _ ⟨⟩ t ht
  simp at ht

theorem stops_cons {p : Token → Prop} (e : Expr) {t : Token} (ht : p t) (ts : List Token) :
    Stops p (.ok (e, t :: ts)) := by
  rintro _ _ ⟨⟩ _ ⟨⟩
  exact ht

/-- Of two readings the second decides where they stop. -/
theorem Stops.bind {p : Token → Prop} {r : Reading} {next : Expr × List Token → Reading}
    (h : ∀ e mid, r = .ok (e, mid) → Stops p (next (e, mid))) : Stops p (r.bind next) := by
  intro e rest hread
  obtain ⟨⟨l, mid⟩, hl, hr⟩ := bind_eq_ok.mp hread
  exact h l mid hl e rest hr

/-- No operator follows what the readers have taken, as each loop goes on with its own. -/
private theorem readers_stop (limit : Nat) : ∀ ts,
    (∀ depth, Stops (fun t => t.kind ≠ .or ∧ t.kind ≠ .and) (disjunction limit depth ts)) ∧
      (∀ depth left, (∀ t ∈ ts.head?, t.kind ≠ .and) →
        Stops (fun t => t.kind ≠ .or ∧ t.kind ≠ .and) (disjuncts limit depth left ts)) ∧
      (∀ depth, Stops (fun t => t.kind ≠ .and) (conjunction limit depth ts)) ∧
      (∀ depth left, Stops (fun t => t.kind ≠ .and) (conjuncts limit depth left ts)) ∧
      ∀ _depth : Nat, True := by
  refine reader_induction limit ?disjunction ?disjuncts ?conjunction ?conjuncts
    (fun _ _ _ => trivial)
  case disjunction =>
    intro depth ts hfirst hmore
    rw [disjunction_eq]
    exact .bind fun l mid hl => hmore l mid hl (hfirst l mid hl)
  case disjuncts =>
    intro depth left ts hnext hand
    cases ts with
    | nil => exact disjuncts_nil limit depth left ▸ stops_nil left
    | cons t us =>
      rw [disjuncts_cons]
      split
      · next ht =>
        obtain ⟨hfirst, hmore⟩ := hnext t us rfl ht
        exact .bind fun r mid hr => hmore r mid hr (hfirst r mid hr)
      · next ht => exact stops_cons left ⟨ht, hand t rfl⟩ us
  case conjunction =>
    intro depth ts _ hmore
    rw [conjunction_eq]
    exact .bind hmore
  case conjuncts =>
    intro depth left ts hnext
    cases ts with
    | nil => exact conjuncts_nil limit depth left ▸ stops_nil left
    | cons t us =>
      rw [conjuncts_cons]
      split
      · next ht => exact .bind (hnext t us rfl ht).2
      · next ht => exact stops_cons left ht us

/-- **No operator follows what a reader of disjunctions has taken.** -/
theorem disjunction_stops (limit depth : Nat) (ts : List Token) :
    Stops (fun t => t.kind ≠ .or ∧ t.kind ≠ .and) (disjunction limit depth ts) :=
  (readers_stop limit ts).1 depth

/-- **No `&&` follows what a reader of conjunctions has taken.** -/
theorem conjunction_stops (limit depth : Nat) (ts : List Token) :
    Stops (fun t => t.kind ≠ .and) (conjunction limit depth ts) :=
  (readers_stop limit ts).2.2.1 depth

/-! ### The readers and the pass -/

namespace Progress

/-- The reading `r` comes as far as a pass with the verdict `v`: if it fails, the pass fails with
the same error, and if it succeeds, the pass stands behind a term when it gets to what is left. -/
def Follows (limit : Nat) (opened : List Nat) (v : Except SyntaxError Unit) (r : Reading) : Prop :=
  v = r.bind fun p => (haveTerm opened).verdict limit p.2

section Follows

variable {limit position : Nat} {opened : List Nat} {v : Except SyntaxError Unit} {r : Reading}
  {next : Expr × List Token → Reading}

/-- One reading after another. -/
theorem Follows.bind (h : Follows limit opened v r)
    (hnext : ∀ e rest, r = .ok (e, rest) →
      Follows limit opened ((haveTerm opened).verdict limit rest) (next (e, rest))) :
    Follows limit opened v (r.bind next) := by
  rw [Follows] at h ⊢
  rw [h]
  cases r with
  | error e => rfl
  | ok p => exact hnext p.1 p.2 rfl

/-- One round of a loop, which takes an operator and an operand or stops. -/
theorem follows_round {operator : Token.Kind} (hoperator : operator = .and ∨ operator = .or)
    {t : Token} {ts : List Token} {left : Expr}
    (hfirst : t.kind = operator → Follows limit opened ((needTerm opened).verdict limit ts) r)
    (hnext : t.kind = operator → ∀ e rest, r = .ok (e, rest) →
      Follows limit opened ((haveTerm opened).verdict limit rest) (next (e, rest))) :
    Follows limit opened ((haveTerm opened).verdict limit (t :: ts))
      (if t.kind = operator then r.bind next else .ok (left, t :: ts)) := by
  split
  · next ht =>
    rw [verdict_cons_of_step (step_haveTerm_operator (ht ▸ hoperator))]
    exact (hfirst ht).bind (hnext ht)
  · exact rfl

/-- A group comes as far as the pass, if what it holds does and no operator follows that. -/
theorem Follows.closeGroup (h : Follows limit (position :: opened) v r)
    (hstops : Stops (fun t => t.kind ≠ .or ∧ t.kind ≠ .and) r) :
    Follows limit opened v (r.bind (Expr.closeGroup position)) := by
  rw [Follows] at h ⊢
  rw [h]
  cases r with
  | error e => rfl
  | ok p =>
    obtain ⟨inner, _ | ⟨t, rest⟩⟩ := p
    · rfl
    · obtain ⟨hor, hand⟩ := hstops inner _ rfl t rfl
      rw [Except.bind, Except.bind, verdict_cons, step_haveTerm_cons (by simp [hor, hand]),
        Expr.closeGroup]
      by_cases hclosing : t.kind = .closing
      · rw [if_pos hclosing, if_pos hclosing]
        rfl
      · rw [if_neg hclosing, if_neg hclosing]
        rfl

end Follows

/-- The readers come as far as the pass. A reader that begins a phrase is met where a term has to
follow, and a loop right behind one. -/
private theorem readers_follow (limit : Nat) : ∀ ts,
    (∀ depth, ∀ opened : List Nat, opened.length = depth →
        Follows limit opened ((needTerm opened).verdict limit ts) (disjunction limit depth ts)) ∧
      (∀ depth left, ∀ opened : List Nat, opened.length = depth →
        Follows limit opened ((haveTerm opened).verdict limit ts)
          (disjuncts limit depth left ts)) ∧
      (∀ depth, ∀ opened : List Nat, opened.length = depth →
        Follows limit opened ((needTerm opened).verdict limit ts) (conjunction limit depth ts)) ∧
      (∀ depth left, ∀ opened : List Nat, opened.length = depth →
        Follows limit opened ((haveTerm opened).verdict limit ts)
          (conjuncts limit depth left ts)) ∧
      ∀ depth, ∀ opened : List Nat, opened.length = depth →
        Follows limit opened ((needTerm opened).verdict limit ts) (term limit depth ts) := by
  refine reader_induction limit ?disjunction ?disjuncts ?conjunction ?conjuncts ?term
  case disjunction =>
    intro depth ts hfirst hmore opened hdepth
    rw [disjunction_eq]
    exact (hfirst opened hdepth).bind fun e rest hr => hmore e rest hr opened hdepth
  case disjuncts =>
    intro depth left ts hnext opened hdepth
    cases ts with
    | nil =>
      rw [disjuncts_nil]
      exact rfl
    | cons t us =>
      rw [disjuncts_cons]
      exact follows_round (.inr rfl) (fun ht => (hnext t us rfl ht).1 opened hdepth)
        fun ht e rest hr => (hnext t us rfl ht).2 e rest hr opened hdepth
  case conjunction =>
    intro depth ts hfirst hmore opened hdepth
    rw [conjunction_eq]
    exact (hfirst opened hdepth).bind fun e rest hr => hmore e rest hr opened hdepth
  case conjuncts =>
    intro depth left ts hnext opened hdepth
    cases ts with
    | nil =>
      rw [conjuncts_nil]
      exact rfl
    | cons t us =>
      rw [conjuncts_cons]
      exact follows_round (.inl rfl) (fun ht => (hnext t us rfl ht).1 opened hdepth)
        fun ht e rest hr => (hnext t us rfl ht).2 e rest hr opened hdepth
  case term =>
    intro depth ts hgroup opened hdepth
    cases ts with
    | nil =>
      rw [term_nil]
      exact rfl
    | cons t us =>
      obtain ⟨kind, position⟩ := t
      rw [term_cons, verdict_cons, step, stepTerm]
      cases kind with
      | literal _ | pattern _ | closing | and | or | unrecognized _ => exact rfl
      | opening =>
        simp only [group_eq, hdepth]
        split
        · exact rfl
        · next hlimit =>
          have hinner := hgroup _ us rfl rfl (Nat.lt_of_not_le hlimit) (position :: opened)
            (congrArg Nat.succ hdepth)
          exact hinner.closeGroup (disjunction_stops limit (depth + 1) us)

/-- **A reader of disjunctions comes as far as the pass**, with as many groups open. -/
theorem verdict_needTerm (limit : Nat) (opened : List Nat) (ts : List Token) :
    (needTerm opened).verdict limit ts =
      (disjunction limit opened.length ts).bind fun p => (haveTerm opened).verdict limit p.2 :=
  (readers_follow limit ts).1 opened.length opened rfl

end Progress

open Progress

/-- **A list of tokens is accepted or refused as the pass says**, with the same error. -/
theorem map_ofTokens_eq_verdict {ts : List Token} (h : ts ≠ []) (limit : Nat) :
    (ofTokens limit ts).map (fun _ => ()) = start.verdict limit ts := by
  rw [ofTokens, if_neg h, start, verdict_needTerm, List.length_nil]
  split
  · next hread =>
    rw [hread]
    rfl
  · next hread =>
    rw [hread]
    rfl
  · next t rest hread =>
    obtain ⟨hor, hand⟩ := disjunction_stops limit 0 ts _ _ hread t rfl
    rw [hread]
    exact (verdict_cons_of_error (step_haveTerm_nil (by simp [hor, hand])) rest).symm

/-- A list of tokens is refused with the error that the pass raises. -/
theorem ofTokens_eq_error_of_verdict {limit : Nat} {ts : List Token} {e : SyntaxError}
    (hts : ts ≠ []) (h : start.verdict limit ts = .error e) : ofTokens limit ts = .error e := by
  rw [← map_ofTokens_eq_verdict hts] at h
  cases hread : ofTokens limit ts with
  | error e' =>
    rw [hread] at h
    cases h
    rfl
  | ok tree =>
    rw [hread] at h
    cases h

/-! ### Where the pass fails -/

/-- A run that fails has come to a token that is refused. -/
theorem Progress.exists_step_of_run {limit : Nat} {p : Progress} {ts : List Token}
    {e : SyntaxError} (h : p.run limit ts = .error e) :
    ∃ pre t post q, ts = pre ++ t :: post ∧ p.run limit pre = .ok q ∧
      q.step limit t = .error e := by
  induction ts generalizing p with
  | nil => simp at h
  | cons t ts ih =>
    cases hstep : p.step limit t with
    | error e' =>
      rw [run_cons, hstep] at h
      cases h
      exact ⟨[], t, ts, p, rfl, rfl, hstep⟩
    | ok q =>
      rw [run_cons, hstep] at h
      obtain ⟨pre, u, post, q', rfl, hpre, hu⟩ := ih h
      exact ⟨t :: pre, u, post, q', rfl, by rwa [run_cons, hstep], hu⟩

/-- The groups that are open after some tokens were open before or opened by one of the tokens. -/
theorem Progress.opened_of_run {limit : Nat} {p q : Progress} {ts : List Token}
    (h : p.run limit ts = .ok q) :
    ∀ position ∈ q.opened,
      position ∈ p.opened ∨ ∃ t ∈ ts, t.kind = .opening ∧ t.position = position := by
  induction ts generalizing p with
  | nil =>
    cases h
    exact fun position hposition => .inl hposition
  | cons t ts ih =>
    rw [run_cons] at h
    obtain ⟨mid, hstep, hrun⟩ := bind_eq_ok.mp h
    intro position hposition
    rcases ih hrun position hposition with hmid | ⟨u, hu, hopening⟩
    · rcases opened_of_step hstep with ⟨ht, hopened⟩ | hsub
      · rw [hopened] at hmid
        rcases List.mem_cons.mp hmid with rfl | hp
        · exact .inr ⟨t, List.mem_cons_self, ht, rfl⟩
        · exact .inl hp
      · exact .inl (hsub hmid)
    · exact .inr ⟨u, List.mem_cons_of_mem t hu, hopening⟩

/-- **An error is raised at the end of the tokens or at one of them.** -/
theorem error_of_ofTokens {limit : Nat} {ts : List Token} {e : SyntaxError}
    (h : ofTokens limit ts = .error e) :
    ts = [] ∧ e = empty ∨
      (∃ p, start.run limit ts = .ok p ∧ p.finish = .error e) ∨
      ∃ pre t post p, ts = pre ++ t :: post ∧ start.run limit pre = .ok p ∧
        p.step limit t = .error e := by
  by_cases hts : ts = []
  · rw [ofTokens, if_pos hts] at h
    cases h
    exact .inl ⟨hts, rfl⟩
  · have hverdict : start.verdict limit ts = .error e := by
      rw [← map_ofTokens_eq_verdict hts, h]
      rfl
    cases hrun : start.run limit ts with
    | ok p =>
      rw [verdict, hrun] at hverdict
      exact .inr (.inl ⟨p, rfl, hverdict⟩)
    | error e' =>
      rw [verdict, hrun] at hverdict
      cases hverdict
      exact .inr (.inr (exists_step_of_run hrun))

/-- A list of tokens is accepted if the pass stands behind a term at its end, outside all groups. -/
theorem exists_ofTokens_eq_ok_of_run {limit : Nat} {ts : List Token}
    (h : start.run limit ts = .ok (haveTerm [])) : ∃ e, ofTokens limit ts = .ok e := by
  have hts : ts ≠ [] := by
    rintro rfl
    simp [start] at h
  have hmap := map_ofTokens_eq_verdict hts limit
  rw [verdict, h] at hmap
  obtain ⟨e, he, -⟩ := map_eq_ok.mp hmap
  exact ⟨e, he⟩

end AccessRules.Expr
