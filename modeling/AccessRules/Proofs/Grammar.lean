import AccessRules.Expr
import AccessRules.Token

/-!
# The grammar of permission expressions

The phrases of the language, as derivations that know nothing of a reader.

* `disjunction := conjunction | disjunction '||' conjunction`
* `conjunction := term | conjunction '&&' term`
* `term := '(' disjunction ')' | literal | pattern`

An operator stands in a left-recursive rule, so a chain of operands is a chain of derivations and
its tree leans to the left. That is what "associates to the left" means here; nothing is said
about loops or accumulators.

## Main definitions

* `Expr.Symbol`: the nonterminal symbols
* `Expr.Derives`: which tokens a symbol derives, the tree that they denote, and how many groups
  are open at once where most are open

## Main statements

* `Derives.recognized`: a phrase has no unrecognized token
* `Derives.patterns_eq`: the patterns of a tree are the pattern tokens of its phrase, in order
* `Derives.of_map_kind_eq`: only the kinds of the tokens count

## Implementation notes

The number of open groups is an index of the derivation and not a bound that it has to respect.
Whether a phrase fits a limit is thereby one comparison at the end, and a derivation says what
happens under every limit, those that it exceeds included.
-/

namespace AccessRules

namespace Token

/-- The pattern that a token is, if it is one. -/
def pattern? (t : Token) : Option String :=
  match t.kind with
  | .pattern text => some text
  | _ => none

theorem pattern?_eq_some {t : Token} {text : String} :
    t.pattern? = some text ↔ t.kind = .pattern text := by
  obtain ⟨kind, position⟩ := t
  cases kind <;> simp [pattern?]

/-- No token stands for a character that begins no token. -/
def Recognized (ts : List Token) : Prop :=
  ∀ t ∈ ts, ∀ c, t.kind ≠ .unrecognized c

@[simp] theorem recognized_nil : Recognized [] := by
  simp [Recognized]

@[simp] theorem recognized_cons {t : Token} {ts : List Token} :
    Recognized (t :: ts) ↔ (∀ c, t.kind ≠ .unrecognized c) ∧ Recognized ts := by
  simp [Recognized]

@[simp] theorem recognized_append {ts us : List Token} :
    Recognized (ts ++ us) ↔ Recognized ts ∧ Recognized us := by
  simp only [Recognized, List.mem_append]
  constructor
  · intro h
    exact ⟨fun t ht => h t (.inl ht), fun t ht => h t (.inr ht)⟩
  · rintro ⟨hts, hus⟩ t (ht | ht)
    · exact hts t ht
    · exact hus t ht

end Token

namespace Expr

/-- The nonterminal symbols of the grammar, the loosest first. -/
inductive Symbol where
  /-- Conjunctions joined by `||`. -/
  | disjunction
  /-- Terms joined by `&&`. -/
  | conjunction
  /-- A group, a truth value or a pattern. -/
  | term
  deriving DecidableEq, Repr

/-- `Derives s n e ts`: the symbol `s` derives the tokens `ts`, which denote the tree `e`, and
`n` groups are open where most are open at once. Positions play no part. -/
inductive Derives : Symbol → Nat → Expr → List Token → Prop where
  /-- A truth value denotes itself. -/
  | literal {t : Token} {value : Bool} (ht : t.kind = .literal value) :
      Derives .term 0 (.literal value) [t]
  /-- A pattern denotes itself. -/
  | pattern {t : Token} {text : String} (ht : t.kind = .pattern text) :
      Derives .term 0 (.pattern text) [t]
  /-- A group denotes what it holds. -/
  | group {o c : Token} {n : Nat} {e : Expr} {ts : List Token} (ho : o.kind = .opening)
      (h : Derives .disjunction n e ts) (hc : c.kind = .closing) :
      Derives .term (n + 1) e (o :: (ts ++ [c]))
  /-- One term is a conjunction. -/
  | ofTerm {n : Nat} {e : Expr} {ts : List Token} (h : Derives .term n e ts) :
      Derives .conjunction n e ts
  /-- A conjunction goes on with a term. -/
  | and {t : Token} {m n : Nat} {l r : Expr} {ls rs : List Token}
      (hl : Derives .conjunction m l ls) (ht : t.kind = .and) (hr : Derives .term n r rs) :
      Derives .conjunction (max m n) (.and l r) (ls ++ t :: rs)
  /-- One conjunction is a disjunction. -/
  | ofConjunction {n : Nat} {e : Expr} {ts : List Token} (h : Derives .conjunction n e ts) :
      Derives .disjunction n e ts
  /-- A disjunction goes on with a conjunction. -/
  | or {t : Token} {m n : Nat} {l r : Expr} {ls rs : List Token}
      (hl : Derives .disjunction m l ls) (ht : t.kind = .or) (hr : Derives .conjunction n r rs) :
      Derives .disjunction (max m n) (.or l r) (ls ++ t :: rs)

namespace Derives

variable {s : Symbol} {n : Nat} {e : Expr} {ts : List Token}

/-- A term is a disjunction too. -/
theorem disjunction_of_term (h : Derives .term n e ts) : Derives .disjunction n e ts :=
  .ofConjunction (.ofTerm h)

/-- No phrase is empty. -/
theorem ne_nil (h : Derives s n e ts) : ts ≠ [] := by
  induction h with
  | literal _ | pattern _ | group _ _ _ _ => exact List.cons_ne_nil _ _
  | ofTerm _ ih | ofConjunction _ ih => exact ih
  | and | or => simp

/-- **A phrase has no unrecognized token.** -/
theorem recognized (h : Derives s n e ts) : Token.Recognized ts := by
  induction h with
  | literal ht | pattern ht => simp [ht]
  | group ho _ hc ih => simp [ho, hc, ih]
  | ofTerm _ ih | ofConjunction _ ih => exact ih
  | and _ ht _ ihl ihr | or _ ht _ ihl ihr => simp [ht, ihl, ihr]

/-- **The patterns of a tree are the pattern tokens of its phrase**, in order and with their
repetitions. -/
theorem patterns_eq (h : Derives s n e ts) : e.patterns = ts.filterMap Token.pattern? := by
  induction h with
  | literal ht => simp [patterns, Token.pattern?, ht]
  | pattern ht => simp [patterns, Token.pattern?, ht]
  | group ho _ hc ih => simp [ih, Token.pattern?, ho, hc]
  | ofTerm _ ih | ofConjunction _ ih => exact ih
  | and _ ht _ ihl ihr | or _ ht _ ihl ihr =>
    rw [patterns, ihl, ihr, List.filterMap_append, List.filterMap_cons]
    simp [Token.pattern?, ht]

/-- **Positions play no part.** Tokens of the same kinds make up the same phrase. -/
theorem of_map_kind_eq (h : Derives s n e ts) {us : List Token}
    (hus : us.map Token.kind = ts.map Token.kind) : Derives s n e us := by
  induction h generalizing us with
  | literal ht =>
    obtain ⟨t, rfl, hkind⟩ := List.map_eq_singleton_iff.mp hus
    exact .literal (hkind.trans ht)
  | pattern ht =>
    obtain ⟨t, rfl, hkind⟩ := List.map_eq_singleton_iff.mp hus
    exact .pattern (hkind.trans ht)
  | group ho _ hc ih =>
    obtain ⟨o, vs, rfl, hkind, hvs⟩ := List.map_eq_cons_iff.mp hus
    rw [List.map_append] at hvs
    obtain ⟨ws, cs, rfl, hws, hcs⟩ := List.map_eq_append_iff.mp hvs
    obtain ⟨c, rfl, hclosing⟩ := List.map_eq_singleton_iff.mp hcs
    exact .group (hkind.trans ho) (ih hws) (hclosing.trans hc)
  | ofTerm _ ih => exact .ofTerm (ih hus)
  | and _ ht _ ihl ihr =>
    rw [List.map_append, List.map_cons] at hus
    obtain ⟨ls, vs, rfl, hls, hvs⟩ := List.map_eq_append_iff.mp hus
    obtain ⟨t, rs, rfl, hkind, hrs⟩ := List.map_eq_cons_iff.mp hvs
    exact .and (ihl hls) (hkind.trans ht) (ihr hrs)
  | ofConjunction _ ih => exact .ofConjunction (ih hus)
  | or _ ht _ ihl ihr =>
    rw [List.map_append, List.map_cons] at hus
    obtain ⟨ls, vs, rfl, hls, hvs⟩ := List.map_eq_append_iff.mp hus
    obtain ⟨t, rs, rfl, hkind, hrs⟩ := List.map_eq_cons_iff.mp hvs
    exact .or (ihl hls) (hkind.trans ht) (ihr hrs)

end Derives

end Expr

end AccessRules
