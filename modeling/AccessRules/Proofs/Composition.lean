import AccessRules.Builtin.Regex
import AccessRules.Proofs.Canonical
import AccessRules.Proofs.Lexemes
import Mathlib.Data.List.Forall2

/-!
# Several texts as one

Texts that must all hold can be asked about as a list, or as one text in which each of them stands
in parentheses and `&&` between them. The two give the same answer, and so do the list of which any
has to hold and the text with `||`. However the single texts are spelled and wherever their
operators bind, the parentheses keep each of them to itself.

## Main definitions

* `Connective`: conjunction and disjunction
* `Connective.compose`: several texts as one
* `Connective.join`, `Connective.check`: what stands for it among expressions and among checks

## Main statements

* `Connective.normalizeChars_compose`: the composed text is spelled normally piece by piece
* `Connective.derives_compose`: the tokens of the composed text are a chain of groups
* `Connective.evaluate_foldl_join`: how such a chain evaluates
* `Connective.compose_agrees`: the composed text is accepted, and decided as the list is

## Implementation notes

What stands in parentheses is cut off at both ends. On the left `(` is no operator character, so
the normal spelling of a text does not depend on what it follows; on the right `)` is no word
character, so the last word ends in front of it. Only the positions of the tokens are shifted, and
the grammar does not look at them.
-/

namespace AccessRules

open AccessRules.Expr (Derives)
open Spelling (isOperatorChar normalizeFrom normalizeChars)
open Text (extent)
open Token (scanFrom)

/-! ### What stands in parentheses -/

namespace Token

/-- Where a text begins does not matter to the kinds of its tokens. -/
theorem map_kind_scanFrom (position position' : Nat) (cs : List Char) :
    (scanFrom position cs).map kind = (scanFrom position' cs).map kind := by
  fun_induction scanFrom position cs generalizing position' with
  | case1 position => rw [scanFrom_nil]
  | case2 position c cs hblank ih => rw [scanFrom_blank hblank, ih]
  | case3 position cs hblank ih => rw [scanFrom_opening, List.map_cons, List.map_cons, ih]
  | case4 position cs hblank hopening ih => rw [scanFrom_closing, List.map_cons, List.map_cons, ih]
  | case5 position c cs hblank hopening hclosing hword word ih =>
    rw [scanFrom_wordChar hword, List.map_cons, List.map_cons, ih]
  | case6 position c cs hblank hopening hclosing hword operator hoperator ih =>
    rw [scanFrom_operator hoperator, List.map_cons, List.map_cons, ih]
  | case7 position c cs hblank hopening hclosing hword hoperator =>
    rw [scanFrom, if_neg hblank, if_neg hopening, if_neg hclosing, if_neg hword]
    simp [hoperator]

end Token

namespace Spelling

/-- What does not go on with a run is spelled as if nothing stood before it. -/
theorem Fresh.normalizeFrom_eq {last : Option Char} {cs : List Char} (h : Fresh last cs) :
    normalizeFrom last cs = normalizeChars cs := by
  cases cs with
  | nil => rfl
  | cons c cs =>
    cases hc : isOperatorChar c with
    | false => rw [normalizeChars, normalizeFrom_cons hc, normalizeFrom_cons hc]
    | true =>
      rw [normalizeChars, normalizeFrom, if_pos hc, if_neg (h c rfl hc), normalizeFrom, if_pos hc,
        if_neg (Option.some_ne_none c).symm]

end Spelling

/-- Conjunction and disjunction. -/
inductive Connective where
  /-- All have to hold. -/
  | and
  /-- Any has to hold. -/
  | or
  deriving DecidableEq, Repr

namespace Connective

/-! ### Composed texts -/

/-- The operator between two texts. -/
def operator : Connective → String
  | and => " && "
  | or => " || "

/-- Several texts as one: each in parentheses, and the operator between them. -/
def compose (c : Connective) (texts : List String) : String :=
  c.operator.intercalate (texts.map fun text => "(" ++ text ++ ")")

/-- The character that the operator is a pair of. -/
def char : Connective → Char
  | and => '&'
  | or => '|'

/-- A text in parentheses. -/
def group (cs : List Char) : List Char :=
  '(' :: (cs ++ [')'])

/-- Texts in parentheses, each behind the operator. -/
def tail (c : Connective) (texts : List (List Char)) : List Char :=
  texts.flatMap fun cs => [' ', c.char, c.char, ' '] ++ group cs

theorem tail_cons (c : Connective) (cs : List Char) (texts : List (List Char)) :
    c.tail (cs :: texts) = [' ', c.char, c.char, ' '] ++ group cs ++ c.tail texts := rfl

theorem toList_operator (c : Connective) : c.operator.toList = [' ', c.char, c.char, ' '] := by
  cases c <;> rfl

theorem toList_compose (c : Connective) (text : String) (texts : List String) :
    (c.compose (text :: texts)).toList =
      group text.toList ++ c.tail (texts.map String.toList) := by
  have hgroup : ∀ text : String, ("(" ++ text ++ ")").toList = group text.toList := by
    intro text
    simp [group]
  rw [compose, String.toList_intercalate, toList_operator]
  induction texts generalizing text with
  | nil => simp [hgroup, tail]
  | cons text' texts ih =>
    simp only [List.map_cons] at ih ⊢
    rw [List.intercalate_cons_cons, ih, hgroup, tail_cons]
    simp only [List.append_assoc]

theorem extent_le_extent_group (cs : List Char) : extent cs ≤ extent (group cs) := by
  rw [group, Text.extent_cons, Text.extent_append]
  omega

theorem extent_le_extent_tail (c : Connective) {cs : List Char} {texts : List (List Char)}
    (h : cs ∈ texts) : extent cs ≤ extent (c.tail texts) := by
  induction texts with
  | nil => simp at h
  | cons ds texts ih =>
    rw [tail_cons, Text.extent_append, Text.extent_append]
    rcases List.mem_cons.mp h with rfl | h
    · have hcs := extent_le_extent_group cs
      omega
    · have hcs := ih h
      omega

/-- A text is no longer than one that is composed of it. -/
theorem utf8ByteSize_le_compose (c : Connective) {text : String} {texts : List String}
    (h : text ∈ texts) : text.utf8ByteSize ≤ (c.compose texts).utf8ByteSize := by
  cases texts with
  | nil => simp at h
  | cons first texts =>
    rw [← Text.extent_toList, ← Text.extent_toList, toList_compose, Text.extent_append]
    rcases List.mem_cons.mp h with rfl | h
    · have htext := extent_le_extent_group text.toList
      omega
    · have hmem : text.toList ∈ texts.map String.toList := List.mem_map_of_mem h
      have htext := c.extent_le_extent_tail hmem
      omega

/-! ### The normal spelling of a composed text -/

theorem normalizeFrom_group (last : Option Char) (cs : List Char) :
    normalizeFrom last (group cs) = group (normalizeChars cs) := by
  have hfresh : Spelling.Fresh (some '(') cs := Spelling.fresh_of_isOperatorChar (by decide) cs
  rw [group, Spelling.normalizeFrom_cons (by decide), Spelling.normalizeFrom_append,
    hfresh.normalizeFrom_eq, Spelling.normalizeFrom_cons (by decide)]
  rfl

theorem normalizeFrom_tail (c : Connective) (last : Option Char) (texts : List (List Char)) :
    normalizeFrom last (c.tail texts) = c.tail (texts.map normalizeChars) := by
  have hoperator : Spelling.Normal [' ', c.char, c.char, ' '] := by
    cases c <;> exact fun _ => rfl
  induction texts generalizing last with
  | nil => rfl
  | cons cs texts ih =>
    rw [List.map_cons, tail_cons, tail_cons, Spelling.normalizeFrom_append,
      Spelling.normalizeFrom_append, hoperator, normalizeFrom_group, ih]

/-- **A composed text is spelled normally piece by piece.** -/
theorem normalizeChars_compose (c : Connective) (text : String) (texts : List String) :
    normalizeChars (c.compose (text :: texts)).toList =
      group (normalizeChars text.toList) ++
        c.tail (texts.map fun text => normalizeChars text.toList) := by
  rw [toList_compose, normalizeChars, Spelling.normalizeFrom_append, normalizeFrom_group,
    normalizeFrom_tail, List.map_map]
  rfl

/-! ### The tokens of a composed text -/

/-- The expression with this operator at its root. -/
def join : Connective → Expr → Expr → Expr
  | and => .and
  | or => .or

/-- The token of the operator. -/
def kind : Connective → Token.Kind
  | and => .and
  | or => .or

/-- The symbol that derives chains of this operator. -/
def symbol : Connective → Expr.Symbol
  | and => .conjunction
  | or => .disjunction

theorem derives_of_term (c : Connective) {n : Nat} {e : Expr} {ts : List Token}
    (h : Derives .term n e ts) : Derives c.symbol n e ts := by
  cases c with
  | and => exact .ofTerm h
  | or => exact h.disjunction_of_term

theorem disjunction_of_derives (c : Connective) {n : Nat} {e : Expr} {ts : List Token}
    (h : Derives c.symbol n e ts) : Derives .disjunction n e ts := by
  cases c with
  | and => exact .ofConjunction h
  | or => exact h

/-- A chain goes on with a term. -/
theorem derives_join (c : Connective) {m n : Nat} {l r : Expr} {ls rs : List Token} {t : Token}
    (hl : Derives c.symbol m l ls) (ht : t.kind = c.kind) (hr : Derives .term n r rs) :
    Derives c.symbol (max m n) (c.join l r) (ls ++ t :: rs) := by
  cases c with
  | and => exact .and hl ht hr
  | or => exact .or hl ht (.ofTerm hr)

/-- A text that is a disjunction is a term wherever it stands in parentheses. -/
theorem derives_group {n : Nat} {e : Expr} {cs : List Char}
    (h : Derives .disjunction n e (scanFrom 0 cs)) (position : Nat) :
    Derives .term (n + 1) e (scanFrom position (group cs)) := by
  have hinner : Derives .disjunction n e (scanFrom (position + 1) cs) :=
    h.of_map_kind_eq (Token.map_kind_scanFrom _ _ _)
  exact Expr.derives_scanFrom_group hinner

/-- The induction is on the texts that are still to come, and `cs` is the chain so far. -/
theorem derives_tail (c : Connective) {limit : Nat} {texts : List (List Char)} {es : List Expr}
    (h : List.Forall₂ (fun cs e => ∃ n ≤ limit, Derives .disjunction n e (scanFrom 0 cs)) texts es)
    {m : Nat} {e : Expr} {position : Nat} {cs : List Char} (hm : m ≤ limit + 1)
    (hcs : Derives c.symbol m e (scanFrom position cs)) :
    ∃ n ≤ limit + 1,
      Derives c.symbol n (es.foldl c.join e) (scanFrom position (cs ++ c.tail texts)) := by
  induction h generalizing m e cs with
  | nil => exact ⟨m, hm, by rwa [tail, List.flatMap_nil, List.append_nil]⟩
  | @cons text r texts es htext _ ih =>
    obtain ⟨n, hn, hr⟩ := htext
    have hkind : c.char = '|' ∧ c.kind = .or ∨ c.char = '&' ∧ c.kind = .and := by
      cases c <;> simp [char, kind]
    have hlonger : Derives c.symbol (max m (n + 1)) (c.join e r)
        (scanFrom position (cs ++ [' ', c.char, c.char, ' '] ++ group text)) := by
      rw [Expr.scanFrom_infix hkind hcs.recognized]
      exact c.derives_join hcs rfl (derives_group hr _)
    rw [tail_cons, ← List.append_assoc, ← List.append_assoc]
    exact ih (by omega) hlonger

/-- **The tokens of a composed text are a chain of groups.** It has one more group open than the
texts that it is composed of. -/
theorem derives_compose (c : Connective) {limit : Nat} {text : String} {texts : List String}
    {e : Expr} {es : List Expr}
    (h : List.Forall₂ (fun text e => ∃ n ≤ limit, Derives .disjunction n e (Expr.tokensOf text))
      (text :: texts) (e :: es)) :
    ∃ n ≤ limit + 1,
      Derives .disjunction n (es.foldl c.join e) (Expr.tokensOf (c.compose (text :: texts))) := by
  have htokens : ∀ text,
      Expr.tokensOf text = scanFrom 0 (normalizeChars text.toList) := by
    intro text
    rw [Expr.tokensOf, Token.scan, Spelling.toList_normalize]
  simp only [htokens] at h ⊢
  obtain ⟨⟨m, hm, hfirst⟩, hrest⟩ := List.forall₂_cons.mp h
  rw [normalizeChars_compose]
  obtain ⟨n, hn, hchain⟩ := c.derives_tail (List.forall₂_map_left_iff.mpr hrest)
    (Nat.succ_le_succ hm) (c.derives_of_term (derives_group hfirst 0))
  exact ⟨n, hn, c.disjunction_of_derives hchain⟩

/-! ### The value of a composed text -/

/-- Whether all of a list hold, or any. -/
def combine {α : Type} (c : Connective) (holds : α → Bool) (as : List α) : Bool :=
  match c with
  | and => as.all holds
  | or => as.any holds

/-- The check of a list of texts, all of which have to hold, or any. -/
def check [RegexLibrary] (c : Connective) (settings : Settings) (granted texts : List String) :
    Checking Bool :=
  match c with
  | and => Decision.hasAll settings granted texts
  | or => Decision.hasAny settings granted texts

theorem answers_check [RegexLibrary] (c : Connective) (settings : Settings)
    (granted texts : List String) :
    (c.check settings granted texts).Answers
      (c.combine (Decision.decides settings granted) texts) := by
  cases c with
  | and => exact Decision.answers_hasAll settings granted texts
  | or => exact Decision.answers_hasAny settings granted texts

theorem combine_congr (c : Connective) {α β : Type} {f : α → Bool} {g : β → Bool} {as : List α}
    {bs : List β} (h : List.Forall₂ (fun a b => f a = g b) as bs) :
    c.combine f as = c.combine g bs := by
  induction h with
  | nil => cases c <;> rfl
  | cons hab _ ih =>
    cases c with
    | and => exact congrArg₂ Bool.and hab ih
    | or => exact congrArg₂ Bool.or hab ih

/-- **A chain holds if all of its operands hold, or any.** -/
theorem evaluate_foldl_join (c : Connective) (holds : String → Bool) (e : Expr) (es : List Expr) :
    (es.foldl c.join e).evaluate holds = c.combine (·.evaluate holds) (e :: es) := by
  induction es generalizing e with
  | nil => cases c <;> simp [combine]
  | cons e' es ih =>
    rw [List.foldl_cons, ih]
    cases c <;> simp [combine, join, Bool.and_assoc, Bool.or_assoc]

/-- **A list of texts can be asked about as one text.** If the texts are accepted under a lower
limit on the nesting and the text that is composed of them is not too long, it is accepted, with
the chain of their expressions, and decided as the list is for all granted names, whatever the
caches hold. -/
theorem compose_agrees [RegexLibrary] (c : Connective) {low settings : Settings}
    (hnesting : low.maxNesting < settings.maxNesting) {text : String} {texts : List String}
    {e : Expr} {es : List Expr}
    (h : List.Forall₂ (fun text e => Expr.ofText low text = .ok e) (text :: texts) (e :: es))
    (hlength : (c.compose (text :: texts)).utf8ByteSize ≤ settings.maxLength.toNat) :
    Expr.ofText settings (c.compose (text :: texts)) = .ok (es.foldl c.join e) ∧
      ∀ granted cache cache',
        ((c.check settings granted (text :: texts)).run cache).value =
          ((Decision.evaluateText settings granted
            (c.compose (text :: texts))).run cache').value := by
  have hlow : low.maxNesting.toNat < settings.maxNesting.toNat := UInt64.lt_iff_toNat_lt.mp hnesting
  have hderives := h.imp fun _ _ hread => (Expr.derives_of_ofText hread).2
  have hcomposed : Expr.ofText settings (c.compose (text :: texts)) = .ok (es.foldl c.join e) := by
    obtain ⟨n, hn, htokens⟩ := c.derives_compose hderives
    exact Expr.ofText_of_derives hlength htokens (by omega)
  have hsingle : List.Forall₂ (fun text e => Expr.ofText settings text = .ok e)
      (text :: texts) (e :: es) := by
    have hsize : ∀ t ∈ text :: texts, t.utf8ByteSize ≤ settings.maxLength.toNat :=
      fun t ht => Nat.le_trans (c.utf8ByteSize_le_compose ht) hlength
    refine ((List.forall₂_and_left _ _).mpr ⟨hsize, hderives⟩).imp ?_
    rintro t r ⟨hle, n, hn, htokens⟩
    exact Expr.ofText_of_derives hle htokens (by omega)
  refine ⟨hcomposed, fun granted cache cache' => ?_⟩
  rw [(c.answers_check settings granted _).value_eq,
    (Decision.answers_evaluateText settings granted _).value_eq,
    Decision.decides_of_ofText hcomposed, evaluate_foldl_join]
  exact c.combine_congr (hsingle.imp fun _ _ hread => Decision.decides_of_ofText hread granted)

section

open scoped Builtin

/-- `a || b` and `c` have no groups of their own. The text that asks for both of them is accepted
where one group may be open, and its `&&` does not reach into `a || b`. -/
theorem compose_agrees_disjunction_and_name :
    Expr.ofText ⟨0, 15, 1⟩ "(a || b) && (c)" =
        .ok (.and (.or (.pattern "a") (.pattern "b")) (.pattern "c")) ∧
      ∀ granted cache cache',
        ((Decision.hasAll ⟨0, 15, 1⟩ granted ["a || b", "c"]).run cache).value =
          ((Decision.evaluateText ⟨0, 15, 1⟩ granted "(a || b) && (c)").run cache').value := by
  let low : Settings := ⟨0, 15, 0⟩
  let settings : Settings := ⟨0, 15, 1⟩
  let either : Expr := .or (.pattern "a") (.pattern "b")
  have heither : Expr.ofText low "a || b" = .ok either :=
    Expr.ofText_text_of_wellNamed (e := either) (by decide) low
  have hname : Expr.ofText low "c" = .ok (.pattern "c") :=
    Expr.ofText_text_of_wellNamed (e := .pattern "c") (by decide) low
  have hnesting : low.maxNesting < settings.maxNesting := by decide
  have hcompose : and.compose ["a || b", "c"] = "(a || b) && (c)" := by decide +kernel
  have hlength : (and.compose ["a || b", "c"]).utf8ByteSize ≤ settings.maxLength.toNat := by
    rw [hcompose]
    decide +kernel
  have hagrees := compose_agrees and hnesting (.cons heither (.cons hname .nil)) hlength
  rwa [hcompose] at hagrees

end

end Connective

end AccessRules
