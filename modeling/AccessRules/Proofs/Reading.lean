import AccessRules.Except
import AccessRules.Expr.OfText
import AccessRules.Proofs.Grammar

/-!
# What the readers of phrases read

The readers take exactly the phrases of the grammar off the front of the tokens, and they build
the tree that the phrase denotes.

## Main definitions

* `Expr.Symbol.read`, `Expr.Symbol.resume`: the reader of a symbol, and how it goes on
* `Expr.Symbol.Completes`: a reading that succeeds has made up a phrase

## Main statements

* `reader_induction`: induction along the calls of the readers
* `read_of_derives`: what a reader does with a phrase, whatever follows and whatever the limit
* `derives_of_read`: what a reader has taken is a phrase
* `ofTokens_of_derives`, `derives_of_ofTokens`: the same for whole lists
* `ofTokens_eq_ok_iff_derives`: a list is accepted exactly when it is a disjunction that fits the
  limit
* `derives_of_ofText`, `ofText_of_derives`: the same for texts

## Implementation notes

A phrase is read as one piece only in the company of what follows: the loop behind its first
operand looks at the next token. So `read_of_derives` does not say what a reader hands back. It
says where the loop goes on, `Symbol.resume`, and a chain of operands is then one rewriting after
another. The same statement covers a phrase that nests too deep, where the reader stops at the
first group beyond the limit whatever else is wrong behind it.
-/

namespace AccessRules.Expr

open SyntaxError (tooDeep)

/-! ### Induction along the calls -/

/-- A reader takes at least the tokens that its bound demands. -/
theorem Bounded.length_rest_lt {bound : Nat} {r : Except SyntaxError (Phrase bound)} {e : Expr}
    {rest : List Token} (h : Bounded.reading r = .ok (e, rest)) : rest.length < bound := by
  cases r with
  | error _ => simp [Bounded.reading, Except.map] at h
  | ok p =>
    have hp : p.rest = rest := by
      simp only [Bounded.reading, Except.map, Except.ok.injEq, Prod.mk.injEq] at h
      exact h.2
    exact hp ▸ p.length_lt

/-- **Induction along the calls of the readers.** Each premise hands a reader its statement from
the statements of the readers that it calls, and the loops get theirs only for what the first
operand has left. -/
theorem reader_induction (limit : Nat) {D C T : Nat → List Token → Prop}
    {M N : Nat → Expr → List Token → Prop}
    (hD : ∀ depth ts, C depth ts →
      (∀ e rest, conjunction limit depth ts = .ok (e, rest) → M depth e rest) → D depth ts)
    (hM : ∀ depth left ts,
      (∀ t us, ts = t :: us → t.kind = .or → C depth us ∧
        ∀ e rest, conjunction limit depth us = .ok (e, rest) → M depth (.or left e) rest) →
      M depth left ts)
    (hC : ∀ depth ts, T depth ts →
      (∀ e rest, term limit depth ts = .ok (e, rest) → N depth e rest) → C depth ts)
    (hN : ∀ depth left ts,
      (∀ t us, ts = t :: us → t.kind = .and → T depth us ∧
        ∀ e rest, term limit depth us = .ok (e, rest) → N depth (.and left e) rest) →
      N depth left ts)
    (hT : ∀ depth ts,
      (∀ t us, ts = t :: us → t.kind = .opening → depth < limit → D (depth + 1) us) →
      T depth ts) :
    ∀ ts, (∀ depth, D depth ts) ∧ (∀ depth left, M depth left ts) ∧ (∀ depth, C depth ts) ∧
      (∀ depth left, N depth left ts) ∧ ∀ depth, T depth ts := by
  intro ts
  -- the length decides: within one length a term comes first and the disjunction last
  induction h : ts.length using Nat.strongRecOn generalizing ts with
  | ind n ih =>
    subst h
    have term_ts : ∀ depth, T depth ts := fun depth =>
      hT depth ts fun t us hts _ _ => (ih us.length (by simp [hts]) us rfl).1 (depth + 1)
    have conjuncts_ts : ∀ depth left, N depth left ts := fun depth left =>
      hN depth left ts fun t us hts _ => by
        subst hts
        refine ⟨(ih us.length (by simp) us rfl).2.2.2.2 depth, fun e rest hread => ?_⟩
        have hlt := Bounded.length_rest_lt hread
        exact (ih rest.length (by simp; omega) rest rfl).2.2.2.1 depth _
    have conjunction_ts : ∀ depth, C depth ts := fun depth =>
      hC depth ts (term_ts depth) fun e rest hread =>
        (ih rest.length (Bounded.length_rest_lt hread) rest rfl).2.2.2.1 depth e
    have disjuncts_ts : ∀ depth left, M depth left ts := fun depth left =>
      hM depth left ts fun t us hts _ => by
        subst hts
        refine ⟨(ih us.length (by simp) us rfl).2.2.1 depth, fun e rest hread => ?_⟩
        have hlt := Bounded.length_rest_lt hread
        exact (ih rest.length (by simp; omega) rest rfl).2.1 depth _
    have disjunction_ts : ∀ depth, D depth ts := fun depth =>
      hD depth ts (conjunction_ts depth) fun e rest hread =>
        (ih rest.length (Bounded.length_rest_lt hread) rest rfl).2.1 depth e
    exact ⟨disjunction_ts, disjuncts_ts, conjunction_ts, conjuncts_ts, term_ts⟩

/-! ### From phrases to readings -/

/-- The reader of a symbol. -/
def Symbol.read (limit depth : Nat) : Symbol → List Token → Reading
  | .disjunction => Expr.disjunction limit depth
  | .conjunction => Expr.conjunction limit depth
  | .term => Expr.term limit depth

/-- How the reader of a symbol goes on after a phrase with the tree `e`. -/
def Symbol.resume (limit depth : Nat) : Symbol → Expr → List Token → Reading
  | .disjunction => disjuncts limit depth
  | .conjunction => conjuncts limit depth
  | .term => fun e rest => .ok (e, rest)

theorem disjuncts_of_head_ne {limit depth : Nat} {left : Expr} {rest : List Token}
    (h : ∀ t ∈ rest.head?, t.kind ≠ .or) : disjuncts limit depth left rest = .ok (left, rest) := by
  cases rest with
  | nil => exact disjuncts_nil limit depth left
  | cons t rest => rw [disjuncts_cons, if_neg (h t (by simp))]

theorem conjuncts_of_head_ne {limit depth : Nat} {left : Expr} {rest : List Token}
    (h : ∀ t ∈ rest.head?, t.kind ≠ .and) : conjuncts limit depth left rest = .ok (left, rest) := by
  cases rest with
  | nil => exact conjuncts_nil limit depth left
  | cons t rest => rw [conjuncts_cons, if_neg (h t (by simp))]

/-- What fits goes on, and what does not fit has failed already. -/
private theorem bind_fits {α β : Type} {fits : Prop} [Decidable fits] (a : α) (e : SyntaxError)
    (f : α → Except SyntaxError β) :
    (if fits then Except.ok a else .error e).bind f = if fits then f a else .error e := by
  split <;> rfl

/-- Two parts fit when the deeper one does. -/
private theorem fits_max {α : Type} (limit depth m n : Nat) (x y : α) :
    (if depth + m ≤ limit then (if depth + n ≤ limit then x else y) else y) =
      if depth + max m n ≤ limit then x else y := by
  by_cases hm : depth + m ≤ limit <;> by_cases hn : depth + n ≤ limit
  · rw [if_pos hm, if_pos hn, if_pos (by omega)]
  · rw [if_pos hm, if_neg hn, if_neg (by omega)]
  · rw [if_neg hm, if_neg (by omega)]
  · rw [if_neg hm, if_neg (by omega)]

/-- **What a reader does with a phrase.** Behind a phrase that fits the limit the loop of the
reader goes on; a phrase that does not fit is refused for its depth. A disjunction must not be
followed by `&&`, which would belong to its last conjunction. -/
theorem read_of_derives {s : Symbol} {n : Nat} {e : Expr} {us : List Token}
    (h : Derives s n e us) {limit depth : Nat} (hdepth : depth ≤ limit) (rest : List Token)
    (hrest : s = .disjunction → ∀ t ∈ rest.head?, t.kind ≠ .and) :
    s.read limit depth (us ++ rest) =
      if depth + n ≤ limit then s.resume limit depth e rest else .error (tooDeep limit) := by
  induction h generalizing depth rest with
  | literal ht | pattern ht => simp [Symbol.read, Symbol.resume, term_cons, ht, hdepth]
  | @group o c n e ts ho _ hc ih =>
    have hread : term limit depth (o :: (ts ++ [c]) ++ rest) =
        group limit depth o.position (ts ++ c :: rest) := by
      rw [List.cons_append, List.append_assoc, List.singleton_append, term_cons, ho]
    rw [Symbol.read, hread, group_eq]
    by_cases hfull : limit ≤ depth
    · rw [if_pos hfull, if_neg (by omega)]
    · have hinner := @ih (depth + 1) (by omega) (c :: rest) (by simp [hc])
      rw [Symbol.read, Symbol.resume, disjuncts_of_head_ne (by simp [hc])] at hinner
      rw [if_neg hfull, hinner, bind_fits, Nat.add_assoc, Nat.add_comm 1 n, closeGroup, if_pos hc]
      rfl
  | ofTerm _ ih =>
    have hterm := ih hdepth rest (by simp)
    rw [Symbol.read] at hterm
    rw [Symbol.read, conjunction_eq, hterm]
    exact bind_fits ..
  | @and t m n l r ls rs _ ht _ ihl ihr =>
    have hleft := ihl hdepth (t :: (rs ++ rest)) (by simp)
    have hright := ihr hdepth rest (by simp)
    rw [Symbol.read, Symbol.resume, conjuncts_cons, if_pos ht] at hleft
    simp only [Symbol.read, Symbol.resume] at hright
    rw [Symbol.read, List.append_assoc, List.cons_append, hleft, hright, bind_fits]
    exact fits_max ..
  | ofConjunction _ ih =>
    have hconjunction := ih hdepth rest (by simp)
    rw [Symbol.read, Symbol.resume, conjuncts_of_head_ne (hrest rfl)] at hconjunction
    rw [Symbol.read, disjunction_eq, hconjunction]
    exact bind_fits ..
  | @or t m n l r ls rs _ ht _ ihl ihr =>
    have hleft := ihl hdepth (t :: (rs ++ rest)) (by simp [ht])
    have hright := ihr hdepth rest (by simp)
    rw [Symbol.read, Symbol.resume, disjuncts_cons, if_pos ht] at hleft
    rw [Symbol.read, Symbol.resume, conjuncts_of_head_ne (hrest rfl)] at hright
    rw [Symbol.read, List.append_assoc, List.cons_append, hleft, hright, bind_fits]
    exact fits_max ..

/-! ### From readings to phrases -/

/-- A group is closed by the next token. -/
theorem closeGroup_eq_ok {position : Nat} {p : Expr × List Token} {e : Expr}
    {rest : List Token} (h : closeGroup position p = .ok (e, rest)) :
    ∃ c : Token, c.kind = .closing ∧ p = (e, c :: rest) := by
  obtain ⟨inner, _ | ⟨c, ts⟩⟩ := p
  · simp [closeGroup] at h
  · rw [closeGroup] at h
    split at h
    · next hc =>
      cases h
      exact ⟨c, hc, rfl⟩
    · simp at h

/-- After the tokens `ls`, a reading of `ts` that succeeds has made up a phrase of `s`, with no
more groups open at once than `limit` leaves at `depth`. -/
def Symbol.Completes (limit depth : Nat) (s : Symbol) (ls ts : List Token) (r : Reading) : Prop :=
  ∀ e rest, r = .ok (e, rest) →
    ∃ n us, ts = us ++ rest ∧ n ≤ limit - depth ∧ Derives s n e (ls ++ us)

/-- What a loop hands back without an operator of its own is what it was given. -/
theorem Symbol.completes_stop {limit depth m : Nat} {s : Symbol} {left : Expr}
    {ls ts : List Token} (hm : m ≤ limit - depth) (hls : Derives s m left ls) :
    s.Completes limit depth ls ts (.ok (left, ts)) := by
  intro e rest h
  cases h
  exact ⟨m, [], rfl, hm, by rwa [List.append_nil]⟩

/-- A phrase of `s` that goes on after a phrase of `s'`. -/
theorem Symbol.Completes.bind {limit depth : Nat} {s s' : Symbol} {ls ts : List Token}
    {r : Reading} {next : Expr × List Token → Reading} (hfirst : s'.Completes limit depth [] ts r)
    (hnext : ∀ e mid m us, r = .ok (e, mid) → m ≤ limit - depth → Derives s' m e us →
      s.Completes limit depth (ls ++ us) mid (next (e, mid))) :
    s.Completes limit depth ls ts (r.bind next) := by
  intro e rest h
  obtain ⟨⟨l, mid⟩, hl, hr⟩ := bind_eq_ok.mp h
  obtain ⟨m, us, rfl, hm, hus⟩ := hfirst l mid hl
  obtain ⟨n, vs, rfl, hn, hvs⟩ := hnext l mid m us hl hm hus e rest hr
  exact ⟨n, us ++ vs, (List.append_assoc ..).symm, hn, by rwa [← List.append_assoc]⟩

/-- The operator between two operands counts for the phrase before it as well as for the tokens
after it. -/
theorem Symbol.Completes.cons {limit depth : Nat} {s : Symbol} {t : Token} {ls ts : List Token}
    {r : Reading} (h : s.Completes limit depth (ls ++ [t]) ts r) :
    s.Completes limit depth ls (t :: ts) r := by
  intro e rest hr
  obtain ⟨n, us, rfl, hn, hus⟩ := h e rest hr
  exact ⟨n, t :: us, rfl, hn, by rwa [List.append_assoc] at hus⟩

/-- The readers take phrases. The statement about a loop is about the phrase that was read before
it as well, since its tree is the left side of what the loop builds. -/
private theorem readers_complete (limit : Nat) : ∀ ts,
    (∀ depth, Symbol.Completes limit depth .disjunction [] ts (disjunction limit depth ts)) ∧
      (∀ depth left, ∀ m ls, m ≤ limit - depth → Derives .disjunction m left ls →
        Symbol.Completes limit depth .disjunction ls ts (disjuncts limit depth left ts)) ∧
      (∀ depth, Symbol.Completes limit depth .conjunction [] ts (conjunction limit depth ts)) ∧
      (∀ depth left, ∀ m ls, m ≤ limit - depth → Derives .conjunction m left ls →
        Symbol.Completes limit depth .conjunction ls ts (conjuncts limit depth left ts)) ∧
      ∀ depth, Symbol.Completes limit depth .term [] ts (term limit depth ts) := by
  refine reader_induction limit ?disjunction ?disjuncts ?conjunction ?conjuncts ?term
  case disjunction =>
    intro depth ts hfirst hmore
    rw [disjunction_eq]
    exact hfirst.bind fun l mid m us hl hm hus => hmore l mid hl m us hm (.ofConjunction hus)
  case disjuncts =>
    intro depth left ts hnext m ls hm hls
    cases ts with
    | nil => exact disjuncts_nil limit depth left ▸ Symbol.completes_stop hm hls
    | cons t us =>
      rw [disjuncts_cons]
      split
      · next ht =>
        obtain ⟨hfirst, hmore⟩ := hnext t us rfl ht
        refine .cons (hfirst.bind fun r mid k rs hr hk hrs => ?_)
        rw [List.append_assoc, List.singleton_append]
        exact hmore r mid hr (max m k) _ (Nat.max_le.mpr ⟨hm, hk⟩) (.or hls ht hrs)
      · exact Symbol.completes_stop hm hls
  case conjunction =>
    intro depth ts hfirst hmore
    rw [conjunction_eq]
    exact hfirst.bind fun l mid m us hl hm hus => hmore l mid hl m us hm (.ofTerm hus)
  case conjuncts =>
    intro depth left ts hnext m ls hm hls
    cases ts with
    | nil => exact conjuncts_nil limit depth left ▸ Symbol.completes_stop hm hls
    | cons t us =>
      rw [conjuncts_cons]
      split
      · next ht =>
        obtain ⟨hfirst, hmore⟩ := hnext t us rfl ht
        refine .cons (hfirst.bind fun r mid k rs hr hk hrs => ?_)
        rw [List.append_assoc, List.singleton_append]
        exact hmore r mid hr (max m k) _ (Nat.max_le.mpr ⟨hm, hk⟩) (.and hls ht hrs)
      · exact Symbol.completes_stop hm hls
  case term =>
    intro depth ts hgroup e rest h
    cases ts with
    | nil => simp at h
    | cons o us =>
      rw [term_cons] at h
      split at h
      · next value ho =>
        cases h
        exact ⟨0, [o], rfl, Nat.zero_le _, .literal ho⟩
      · next text ho =>
        cases h
        exact ⟨0, [o], rfl, Nat.zero_le _, .pattern ho⟩
      · next ho =>
        rw [group_eq] at h
        split at h
        · simp at h
        · next hdepth =>
          obtain ⟨p, hinner, hclose⟩ := bind_eq_ok.mp h
          obtain ⟨c, hc, rfl⟩ := closeGroup_eq_ok hclose
          obtain ⟨n, ts, rfl, hn, hts⟩ :=
            hgroup o us rfl ho (Nat.lt_of_not_le hdepth) e (c :: rest) hinner
          exact ⟨n + 1, o :: (ts ++ [c]), by simp, by omega, .group ho hts hc⟩
      · simp at h

/-- **What a reader has taken is a phrase.** -/
theorem derives_of_read {s : Symbol} {limit depth : Nat} {ts rest : List Token} {e : Expr}
    (h : s.read limit depth ts = .ok (e, rest)) :
    ∃ n us, ts = us ++ rest ∧ n ≤ limit - depth ∧ Derives s n e us := by
  have hall := readers_complete limit ts
  cases s with
  | disjunction => exact hall.1 depth e rest h
  | conjunction => exact hall.2.2.1 depth e rest h
  | term => exact hall.2.2.2.2 depth e rest h

/-! ### Whole lists -/

/-- A list that is a disjunction is accepted if it fits the limit, and is refused for its depth
if it does not. -/
theorem ofTokens_of_derives {n : Nat} {e : Expr} {ts : List Token}
    (h : Derives .disjunction n e ts) (limit : Nat) :
    ofTokens limit ts = if n ≤ limit then .ok e else .error (tooDeep limit) := by
  have hread := read_of_derives h (Nat.zero_le limit) [] (by simp)
  rw [Symbol.read, List.append_nil, Symbol.resume, disjuncts_nil, Nat.zero_add] at hread
  rw [ofTokens, if_neg h.ne_nil, hread]
  by_cases hn : n ≤ limit
  · rw [if_pos hn, if_pos hn]
  · rw [if_neg hn, if_neg hn]

/-- An accepted list is a disjunction that fits the limit. -/
theorem derives_of_ofTokens {limit : Nat} {ts : List Token} {e : Expr}
    (h : ofTokens limit ts = .ok e) : ∃ n ≤ limit, Derives .disjunction n e ts := by
  rw [ofTokens] at h
  split at h
  · simp at h
  · split at h
    · simp at h
    · next e' hread =>
      cases h
      obtain ⟨n, us, rfl, hn, hus⟩ := derives_of_read (s := .disjunction) hread
      exact ⟨n, hn, by rwa [List.append_nil]⟩
    · simp at h

/-- A list denotes at most one tree, whatever the depth of its derivations. -/
theorem Derives.tree_unique {m n : Nat} {e e' : Expr} {ts : List Token}
    (h : Derives .disjunction m e ts) (h' : Derives .disjunction n e' ts) : e = e' := by
  have hok : ofTokens (max m n) ts = .ok e := by
    rw [ofTokens_of_derives h, if_pos (Nat.le_max_left m n)]
  have hok' : ofTokens (max m n) ts = .ok e' := by
    rw [ofTokens_of_derives h', if_pos (Nat.le_max_right m n)]
  exact Except.ok.inj (hok.symm.trans hok')

/-- **The reader accepts exactly the grammar and builds the one tree that a list denotes.** A
list is accepted with the tree `e` if and only if it is a disjunction that denotes `e` and in
which no more than `limit` groups are open at once. No list denotes two trees, at whatever
depths, and no accepted list has an unrecognized token. -/
theorem ofTokens_eq_ok_iff_derives (limit : Nat) (ts : List Token) (e : Expr) :
    (ofTokens limit ts = .ok e ↔ ∃ n ≤ limit, Derives .disjunction n e ts) ∧
      (∀ m n e', Derives .disjunction m e ts → Derives .disjunction n e' ts → e = e') ∧
      (ofTokens limit ts = .ok e → Token.Recognized ts) := by
  refine ⟨⟨derives_of_ofTokens, ?_⟩, fun m n e' h h' => h.tree_unique h', fun h => ?_⟩
  · rintro ⟨n, hn, h⟩
    rw [ofTokens_of_derives h, if_pos hn]
  · obtain ⟨n, _, hts⟩ := derives_of_ofTokens h
    exact hts.recognized

/-- The tokens of `a && (b)`, where the one group may be opened. -/
theorem ofTokens_conjunction_with_group :
    ofTokens 1 [⟨.pattern "a", 0⟩, ⟨.and, 2⟩, ⟨.opening, 5⟩, ⟨.pattern "b", 6⟩, ⟨.closing, 7⟩] =
      .ok (.and (.pattern "a") (.pattern "b")) := by
  have hgroup : Derives .term 1 (.pattern "b")
      [⟨.opening, 5⟩, ⟨.pattern "b", 6⟩, ⟨.closing, 7⟩] :=
    .group rfl (Derives.disjunction_of_term (.pattern rfl)) rfl
  have hphrase := Derives.and (t := ⟨.and, 2⟩)
    (.ofTerm (.pattern (t := ⟨.pattern "a", 0⟩) rfl)) rfl hgroup
  exact (ofTokens_eq_ok_iff_derives 1 _ _).1.mpr ⟨1, Nat.le_refl 1, .ofConjunction hphrase⟩

/-! ### Texts -/

/-- An accepted text is no longer than the limit, and its tokens are a disjunction that fits the
limit on the nesting. -/
theorem derives_of_ofText {settings : Settings} {raw : String} {e : Expr}
    (h : ofText settings raw = .ok e) :
    raw.utf8ByteSize ≤ settings.maxLength.toNat ∧
      ∃ n ≤ settings.maxNesting.toNat, Derives .disjunction n e (tokensOf raw) := by
  rw [ofText] at h
  split at h
  · simp at h
  · next hlength => exact ⟨Nat.le_of_not_lt hlength, derives_of_ofTokens h⟩

/-- A text that fits both limits is accepted if its tokens are a disjunction. -/
theorem ofText_of_derives {settings : Settings} {raw : String} {n : Nat} {e : Expr}
    (hlength : raw.utf8ByteSize ≤ settings.maxLength.toNat)
    (h : Derives .disjunction n e (tokensOf raw)) (hn : n ≤ settings.maxNesting.toNat) :
    ofText settings raw = .ok e := by
  rw [ofText, if_neg (Nat.not_lt.mpr hlength), ofTokens_of_derives h, if_pos hn]

end AccessRules.Expr
