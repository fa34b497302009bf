import AccessRules.Builtin.Regex
import AccessRules.Proofs.Answers
import AccessRules.Proofs.PaddedWord

/-!
# Spelling and spacing never change the reading

An expression is a list of lexemes, and there are many ways to write them down: an operator is a
run of any length of its character, and blanks go wherever one likes. They are needed only where
two lexemes would run into one, which are two words and two equal operators. However the lexemes
are written, the same lexemes are read.

## Main definitions

* `Lexeme`: what an expression is written with
* `Lexeme.Spells`, `Lexeme.Merges`: the ways to write one lexeme, and which neighbours need a blank
* `Lexeme.Writes`: the texts that write down a list of lexemes

## Main statements

* `map_kind_scanFrom_normalizeFrom`: a text that writes down lexemes is read as these lexemes
* `ofTokens_eq_ok_iff_of_map_kind_eq`: only the kinds of tokens decide what they spell
* `decides_eq_true_iff_of_le`: a text that fits is decided as what it spells
* `reading_of_writes`: texts that write down the same lexemes are read and decided alike

## Implementation notes

The spelling and the scan are followed in one induction along the text, since each lexeme is made
normal on its own. What has to be carried along is what each of the two remembers of the lexeme
before: the normal spelling its last character, and the scan whether a word is still going on.
-/

namespace AccessRules

open Text Token Spelling

/-- A word: a name or a truth value. -/
structure Word where
  chars : List Char
  ne_nil : chars ≠ []
  wordChars : ∀ c ∈ chars, isWordChar c = true

/-- What an expression is written with. -/
inductive Lexeme where
  /-- An opening parenthesis. -/
  | opening
  /-- A closing parenthesis. -/
  | closing
  /-- A conjunction. -/
  | and
  /-- A disjunction. -/
  | or
  /-- A word. -/
  | word (word : Word)

namespace Lexeme

/-- What a lexeme is read as. -/
def kind : Lexeme → Kind
  | opening => .opening
  | closing => .closing
  | and => .and
  | or => .or
  | word w => .ofWord w.chars

/-- The ways to write one lexeme. An operator is a run of any length of its character. -/
inductive Spells : Lexeme → List Char → Prop where
  | opening : Spells opening ['(']
  | closing : Spells closing [')']
  | and (n : Nat) : Spells and (List.replicate (n + 1) '&')
  | or (n : Nat) : Spells or (List.replicate (n + 1) '|')
  | word (w : Word) : Spells (word w) w.chars

/-- Whether two neighbours would run into one lexeme, were there no blank between them. -/
def Merges : Lexeme → Lexeme → Prop
  | word _, word _ | and, and | or, or => True
  | _, _ => False

/-- `Writes ls cs`: the text `cs` writes down the lexemes `ls`. Blanks may stand anywhere outside
the lexemes, and one has to stand between neighbours that would run into one. -/
inductive Writes : List Lexeme → List Char → Prop where
  | nil : Writes [] []
  | blank {ls : List Lexeme} {c : Char} {cs : List Char} (hc : isBlank c = true)
      (h : Writes ls cs) : Writes ls (c :: cs)
  | lexeme {l : Lexeme} {ls : List Lexeme} {s cs : List Char} (hs : l.Spells s)
      (hgap : ∀ m ∈ ls.head?, l.Merges m → ∃ c ∈ cs.head?, isBlank c = true)
      (h : Writes ls cs) : Writes (l :: ls) (s ++ cs)

/-! ### Where a lexeme begins -/

/-- The characters that a lexeme may begin with. -/
def Begins : Lexeme → Char → Prop
  | opening, c => c = '('
  | closing, c => c = ')'
  | and, c => c = '&'
  | or, c => c = '|'
  | word _, c => isWordChar c = true

theorem isBlank_of_begins {l : Lexeme} {c : Char} (h : l.Begins c) : isBlank c = false := by
  cases l with
  | opening | closing | and | or =>
    cases h
    decide
  | word w => exact isBlank_of_isWordChar h

/-- Lexemes that may begin alike would run into one, if there is a lexeme at all with which the
first would. -/
theorem merges_of_begins {l m : Lexeme} {c : Char} (hself : l.Merges l) (hl : l.Begins c)
    (hm : m.Begins c) : l.Merges m := by
  have hpunctuation : isWordChar '(' = false ∧ isWordChar ')' = false ∧ isWordChar '&' = false ∧
      isWordChar '|' = false := by decide
  cases l <;> cases m <;> simp_all [Begins, Merges]

/-- What spells a lexeme begins with one of its characters. -/
theorem Spells.exists_cons {l : Lexeme} {s : List Char} (h : l.Spells s) :
    ∃ c cs, s = c :: cs ∧ l.Begins c := by
  cases h with
  | opening | closing => exact ⟨_, _, rfl, rfl⟩
  | and n | or n => exact ⟨_, _, List.replicate_succ, rfl⟩
  | word w =>
    obtain ⟨c, cs, hw⟩ := List.exists_cons_of_ne_nil w.ne_nil
    exact ⟨c, cs, hw, w.wordChars c (by simp [hw])⟩

/-- What writes down lexemes begins with a blank or with the first of them. -/
theorem Writes.isBlank_or_begins {ls : List Lexeme} {cs : List Char} (h : Writes ls cs) {c : Char}
    (hc : c ∈ cs.head?) : isBlank c = true ∨ ∃ l ∈ ls.head?, l.Begins c := by
  cases h with
  | nil => simp at hc
  | blank hblank _ =>
    obtain rfl : _ = c := Option.some.inj hc
    exact .inl hblank
  | lexeme hs _ _ =>
    obtain ⟨d, ds, rfl, hbegins⟩ := hs.exists_cons
    obtain rfl : d = c := Option.some.inj hc
    exact .inr ⟨_, rfl, hbegins⟩

/-- **A lexeme ends where it was written to end.** What follows does not begin as a lexeme that
would run into it. -/
theorem Writes.not_begins {l : Lexeme} {ls : List Lexeme} {cs : List Char} (h : Writes ls cs)
    (hgap : ∀ m ∈ ls.head?, l.Merges m → ∃ c ∈ cs.head?, isBlank c = true) (hself : l.Merges l) :
    ∀ c ∈ cs.head?, ¬ l.Begins c := by
  intro c hc hl
  have hblank : isBlank c = true := by
    rcases h.isBlank_or_begins hc with hb | ⟨m, hm, hbegins⟩
    · exact hb
    · obtain ⟨d, hd, hb⟩ := hgap m hm (merges_of_begins hself hl hbegins)
      obtain rfl : c = d := Option.some.inj (hc.symm.trans hd)
      exact hb
  rw [isBlank_of_begins hl] at hblank
  exact Bool.noConfusion hblank

end Lexeme

/-! ### The normal spelling of one lexeme -/

namespace Spelling

/-- The text `cs` does not go on with a run of the character `last` before it. -/
def Fresh (last : Option Char) (cs : List Char) : Prop :=
  ∀ c ∈ cs.head?, isOperatorChar c = true → last ≠ some c

/-- Behind a character that is no operator there is no run to go on with. -/
theorem fresh_of_isOperatorChar {x : Char} (hx : isOperatorChar x = false) (cs : List Char) :
    Fresh (some x) cs := by
  rintro c - hc ⟨⟩
  rw [hx] at hc
  exact Bool.noConfusion hc

/-- A character that is no operator is kept. -/
theorem normalizeFrom_cons {c : Char} (hc : isOperatorChar c = false) (last : Option Char)
    (cs : List Char) : normalizeFrom last (c :: cs) = c :: normalizeFrom (some c) cs := by
  simp [normalizeFrom, hc]

/-- What is left of a run is dropped. -/
theorem normalizeFrom_replicate {c : Char} (hc : isOperatorChar c = true) (n : Nat)
    (cs : List Char) :
    normalizeFrom (some c) (List.replicate n c ++ cs) = normalizeFrom (some c) cs := by
  induction n with
  | zero => rfl
  | succ n ih =>
    rw [List.replicate_succ, List.cons_append, normalizeFrom, if_pos hc, if_pos rfl, ih]

/-- A run is spelled with two characters. -/
theorem normalizeFrom_run {c : Char} (hc : isOperatorChar c = true) {last : Option Char}
    (hlast : last ≠ some c) (n : Nat) (cs : List Char) :
    normalizeFrom last (List.replicate (n + 1) c ++ cs) =
      c :: c :: normalizeFrom (some c) cs := by
  rw [List.replicate_succ, List.cons_append, normalizeFrom, if_pos hc, if_neg hlast,
    normalizeFrom_replicate hc]

/-- The normal spelling begins with the same character. -/
theorem Fresh.head?_normalizeFrom {last : Option Char} {cs : List Char} (h : Fresh last cs) :
    (normalizeFrom last cs).head? = cs.head? := by
  cases cs with
  | nil => rfl
  | cons c cs =>
    cases hc : isOperatorChar c with
    | false => rw [normalizeFrom_cons hc, List.head?_cons, List.head?_cons]
    | true =>
      rw [normalizeFrom, if_pos hc, if_neg (h c rfl hc), List.head?_cons, List.head?_cons]

end Spelling

namespace Lexeme

/-! ### Reading what was written -/

/-- A run of an operator character is read as the operator. -/
theorem map_kind_scanFrom_run {l : Lexeme} {c : Char}
    (hl : l = and ∧ c = '&' ∨ l = or ∧ c = '|') {last : Option Char} (hlast : last ≠ some c)
    (n position : Nat) (cs : List Char) :
    (scanFrom position (normalizeFrom last (List.replicate (n + 1) c ++ cs))).map Token.kind =
      l.kind :: (scanFrom (position + 2) (normalizeFrom (some c) cs)).map Token.kind := by
  have hc : isOperatorChar c = true := by
    rcases hl with ⟨-, rfl⟩ | ⟨-, rfl⟩ <;> rfl
  have hpair : ∀ ds, operatorAt c (c :: ds) = some l.kind := by
    intro ds
    rcases hl with ⟨rfl, rfl⟩ | ⟨rfl, rfl⟩ <;> rfl
  rw [normalizeFrom_run hc hlast, scanFrom_operator (hpair _), List.tail_cons, List.map_cons]

/-- A word is read as that word, if no word character follows. -/
theorem map_kind_scanFrom_word (w : Word) {cs : List Char}
    (hcs : ∀ c ∈ cs.head?, isWordChar c ≠ true) (last : Option Char) (position : Nat) :
    ∃ x, isOperatorChar x = false ∧
      (scanFrom position (normalizeFrom last (w.chars ++ cs))).map Token.kind =
        (word w).kind ::
          (scanFrom (position + extent w.chars) (normalizeFrom (some x) cs)).map Token.kind := by
  have hwords : ∀ c ∈ w.chars, isOperatorChar c = false := fun c hc =>
    isOperatorChar_of_isWordChar (w.wordChars c hc)
  have hlast : w.chars.getLast?.or last = some (w.chars.getLast w.ne_nil) := by
    rw [List.getLast?_eq_some_getLast w.ne_nil]
    rfl
  have hend := hwords _ (List.getLast_mem w.ne_nil)
  have hstop : ∀ c ∈ (normalizeFrom (some (w.chars.getLast w.ne_nil)) cs).head?,
      isWordChar c = false := by
    intro c hc
    rw [(fresh_of_isOperatorChar hend cs).head?_normalizeFrom] at hc
    exact Bool.eq_false_iff.mpr (hcs c hc)
  refine ⟨w.chars.getLast w.ne_nil, hend, ?_⟩
  rw [normalizeFrom_append, normalizeFrom_of_forall hwords, hlast,
    scanFrom_word_append w.ne_nil w.wordChars hstop, List.map_cons]
  rfl

/-- **What writes down lexemes is read as these lexemes**, if it does not go on with the run before
it. -/
theorem map_kind_scanFrom_normalizeFrom {ls : List Lexeme} {cs : List Char} (h : Writes ls cs)
    {last : Option Char} (hlast : Fresh last cs) (position : Nat) :
    (scanFrom position (normalizeFrom last cs)).map Token.kind = ls.map kind := by
  induction h generalizing last position with
  | nil => simp [normalizeFrom]
  | blank hc _ ih =>
    have hoperator := isOperatorChar_of_isBlank hc
    rw [normalizeFrom_cons hoperator, scanFrom_blank hc, ih (fresh_of_isOperatorChar hoperator _)]
  | @lexeme l ls s cs hs hgap h ih =>
    have hend := h.not_begins hgap
    rw [List.map_cons]
    cases hs with
    | opening =>
      rw [List.singleton_append, normalizeFrom_cons (by decide), scanFrom_opening, List.map_cons,
        ih (fresh_of_isOperatorChar (by decide) cs)]
      rfl
    | closing =>
      rw [List.singleton_append, normalizeFrom_cons (by decide), scanFrom_closing, List.map_cons,
        ih (fresh_of_isOperatorChar (by decide) cs)]
      rfl
    | and n =>
      rw [map_kind_scanFrom_run (.inl ⟨rfl, rfl⟩) (hlast '&' rfl rfl), ih]
      rintro c hc - ⟨⟩
      exact hend trivial _ hc rfl
    | or n =>
      rw [map_kind_scanFrom_run (.inr ⟨rfl, rfl⟩) (hlast '|' rfl rfl), ih]
      rintro c hc - ⟨⟩
      exact hend trivial _ hc rfl
    | word w =>
      obtain ⟨x, hx, hword⟩ := map_kind_scanFrom_word w (hend trivial) last position
      rw [hword, ih (fresh_of_isOperatorChar hx cs)]

/-- The kinds of the tokens of a text that writes down lexemes. -/
theorem map_kind_tokensOf {ls : List Lexeme} {text : String} (h : Writes ls text.toList) :
    (Expr.tokensOf text).map Token.kind = ls.map kind := by
  rw [Expr.tokensOf, Token.scan, toList_normalize, normalizeChars]
  exact map_kind_scanFrom_normalizeFrom h (by simp [Fresh]) 0

/-- No lexeme is read as an unrecognized character. -/
theorem kind_ne_unrecognized (l : Lexeme) (c : Char) : l.kind ≠ .unrecognized c := by
  cases l with
  | opening | closing | and | or => simp [kind]
  | word w => exact Kind.ofWord_ne_unrecognized w.chars c

end Lexeme

/-! ### Texts with the same lexemes -/

namespace Expr

/-- Only the kinds of the tokens decide which expression they spell. -/
theorem ofTokens_eq_ok_iff_of_map_kind_eq {ts us : List Token}
    (h : ts.map Token.kind = us.map Token.kind) (limit : Nat) (e : Expr) :
    ofTokens limit ts = .ok e ↔ ofTokens limit us = .ok e := by
  have transfer : ∀ {ts us : List Token}, ts.map Token.kind = us.map Token.kind →
      ofTokens limit ts = .ok e → ofTokens limit us = .ok e := by
    intro ts us h hts
    obtain ⟨n, hn, hderives⟩ := derives_of_ofTokens hts
    rw [ofTokens_of_derives (hderives.of_map_kind_eq h.symm), if_pos hn]
  exact ⟨transfer h, transfer h.symm⟩

/-- A text that fits is read from its tokens. -/
theorem ofText_of_le {settings : Settings} {text : String}
    (h : text.utf8ByteSize ≤ settings.maxLength.toNat) :
    ofText settings text = ofTokens settings.maxNesting.toNat (tokensOf text) := by
  rw [ofText, if_neg (Nat.not_lt.mpr h)]

end Expr

namespace Decision

/-- A text that fits holds exactly when it spells an expression that holds. Truth values are no
exception. -/
theorem decides_eq_true_iff_of_le [RegexLibrary] {settings : Settings} {text : String}
    (h : text.utf8ByteSize ≤ settings.maxLength.toNat) (granted : List String) :
    decides settings granted text = true ↔
      ∃ e, Expr.ofText settings text = .ok e ∧ e.evaluate (holds granted) = true := by
  rw [decides]
  cases hliteral : literal? text with
  | some value =>
    rw [Expr.ofText_of_literal? hliteral, if_neg (Nat.not_lt.mpr h)]
    simp
  | none => cases Expr.ofText settings text <;> simp

/-- An accepted text holds as the expression that it spells. -/
theorem decides_of_ofText [RegexLibrary] {settings : Settings} {text : String} {e : Expr}
    (h : Expr.ofText settings text = .ok e) (granted : List String) :
    decides settings granted text = e.evaluate (holds granted) := by
  rw [Bool.eq_iff_iff, decides_eq_true_iff_of_le (Expr.derives_of_ofText h).1, h]
  simp

end Decision

namespace Lexeme

/-- **Spelling and spacing never change the reading.** A text that writes down lexemes has tokens
for just these lexemes, and none that is unrecognized. Any two texts that write down the same
lexemes and fit the limit spell the same expression if they spell one at all, and they are decided
alike for all granted names, whatever the cache holds. -/
theorem reading_of_writes [RegexLibrary] {ls : List Lexeme} {text text' : String}
    (h : Writes ls text.toList) (h' : Writes ls text'.toList) :
    (Expr.tokensOf text).map Token.kind = ls.map kind ∧ Recognized (Expr.tokensOf text) ∧
      ∀ settings : Settings, text.utf8ByteSize ≤ settings.maxLength.toNat →
        text'.utf8ByteSize ≤ settings.maxLength.toNat →
        (∀ e, Expr.ofText settings text = .ok e ↔ Expr.ofText settings text' = .ok e) ∧
        ∀ granted cache cache',
          ((Decision.evaluateText settings granted text).run cache).value =
            ((Decision.evaluateText settings granted text').run cache').value := by
  have hkinds := map_kind_tokensOf h
  refine ⟨hkinds, fun t ht c hc => ?_, fun settings hle hle' => ?_⟩
  · have hmem : t.kind ∈ ls.map kind := hkinds ▸ List.mem_map_of_mem ht
    obtain ⟨l, -, hl⟩ := List.mem_map.mp hmem
    exact kind_ne_unrecognized l c (hl.trans hc)
  · have hsame : ∀ e, Expr.ofText settings text = .ok e ↔ Expr.ofText settings text' = .ok e := by
      intro e
      rw [Expr.ofText_of_le hle, Expr.ofText_of_le hle']
      exact Expr.ofTokens_eq_ok_iff_of_map_kind_eq (hkinds.trans (map_kind_tokensOf h').symm) _ e
    refine ⟨hsame, fun granted cache cache' => ?_⟩
    rw [(Decision.answers_evaluateText settings granted text).value_eq,
      (Decision.answers_evaluateText settings granted text').value_eq, Bool.eq_iff_iff,
      Decision.decides_eq_true_iff_of_le hle, Decision.decides_eq_true_iff_of_le hle']
    simp only [hsame]

section

open scoped Builtin

/-- Two ways to write down `(a or b) and c`, one as tight as possible and one with room. -/
theorem reading_of_writes_tight_and_roomy :
    (Expr.tokensOf "(a|b)&c").map Token.kind =
        [.opening, .pattern "a", .or, .pattern "b", .closing, .and, .pattern "c"] ∧
      ∀ e, Expr.ofText .defaults "(a|b)&c" = .ok e ↔
        Expr.ofText .defaults " ( a ||| b\t) && c" = .ok e := by
  let a : Word := ⟨['a'], by decide, List.all_eq_true.mp (by decide)⟩
  let b : Word := ⟨['b'], by decide, List.all_eq_true.mp (by decide)⟩
  let c : Word := ⟨['c'], by decide, List.all_eq_true.mp (by decide)⟩
  have tight : Writes [opening, word a, or, word b, closing, and, word c] "(a|b)&c".toList :=
    .lexeme .opening (by rintro _ ⟨⟩ ⟨⟩) <| .lexeme (.word a) (by rintro _ ⟨⟩ ⟨⟩) <|
    .lexeme (.or 0) (by rintro _ ⟨⟩ ⟨⟩) <| .lexeme (.word b) (by rintro _ ⟨⟩ ⟨⟩) <|
    .lexeme .closing (by rintro _ ⟨⟩ ⟨⟩) <| .lexeme (.and 0) (by rintro _ ⟨⟩ ⟨⟩) <|
    .lexeme (.word c) (by rintro _ ⟨⟩) .nil
  have roomy : Writes [opening, word a, or, word b, closing, and, word c]
      " ( a ||| b\t) && c".toList :=
    .blank rfl <| .lexeme .opening (by rintro _ ⟨⟩ ⟨⟩) <|
    .blank rfl <| .lexeme (.word a) (by rintro _ ⟨⟩ ⟨⟩) <|
    .blank rfl <| .lexeme (.or 2) (by rintro _ ⟨⟩ ⟨⟩) <|
    .blank rfl <| .lexeme (.word b) (by rintro _ ⟨⟩ ⟨⟩) <|
    .blank rfl <| .lexeme .closing (by rintro _ ⟨⟩ ⟨⟩) <|
    .blank rfl <| .lexeme (.and 1) (by rintro _ ⟨⟩ ⟨⟩) <|
    .blank rfl <| .lexeme (.word c) (by rintro _ ⟨⟩) .nil
  obtain ⟨hkinds, -, hread⟩ := reading_of_writes tight roomy
  exact ⟨hkinds, (hread .defaults (by decide) (by decide)).1⟩

end

end Lexeme

end AccessRules
