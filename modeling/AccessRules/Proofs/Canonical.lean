import AccessRules.Expr.OfText
import AccessRules.Proofs.Reading
import AccessRules.Proofs.Scanning
import AccessRules.Proofs.Spelling

/-!
# The canonical text reads back

The canonical text of a tree is itself an expression, and it spells the tree that it was written
for. It puts every binary operand in parentheses, also where the grammar does without, so it may
nest deeper than the text that the tree came from, and it may be longer.

## Main definitions

* `Expr.nest`: how many groups the canonical text has open at once
* `Expr.WellNamed`: all patterns of the tree are names
* `Expr.chain`: one pattern joined to itself, where the canonical text nests deepest

## Main statements

* `derives_scanFrom_text`: the tokens of the canonical text are a phrase for the tree
* `ofText_text_of_wellNamed`: what reading the canonical text gives, under every limit
* `wellNamed_of_ofText`: the trees that texts spell are well named
* `nest_chain`, `ofText_chainText`: a text without groups whose canonical text has any number

## Implementation notes

The layers are passed one at a time: the canonical text is spelled normally (`normal_text`), its
tokens are a phrase, and what the reader does with a phrase is known. None of the lemmas looks at
more than one node of the tree.
-/

namespace AccessRules

namespace Expr

open Token (scanFrom)

/-! ### Nesting and names -/

/-- How many groups the canonical text has open where most are open: a binary operand stands in a
group, and a leaf does not. -/
def nest : Expr → Nat
  | literal _ | pattern _ => 0
  | and left right | or left right =>
    max (if left.isBinary then 1 + left.nest else 0) (if right.isBinary then 1 + right.nest else 0)

/-- All patterns of the tree are names. -/
def WellNamed (e : Expr) : Prop :=
  ∀ p ∈ e.patterns, Token.IsName p

instance (e : Expr) : Decidable e.WellNamed :=
  inferInstanceAs (Decidable (∀ p ∈ e.patterns, Token.IsName p))

@[simp] theorem wellNamed_literal (value : Bool) : WellNamed (literal value) := by
  simp [WellNamed, patterns]

@[simp] theorem wellNamed_pattern {text : String} :
    WellNamed (pattern text) ↔ Token.IsName text := by
  simp [WellNamed, patterns]

@[simp] theorem wellNamed_and {left right : Expr} :
    WellNamed (and left right) ↔ left.WellNamed ∧ right.WellNamed := by
  simp [WellNamed, patterns, or_imp, forall_and]

@[simp] theorem wellNamed_or {left right : Expr} :
    WellNamed (or left right) ↔ left.WellNamed ∧ right.WellNamed := by
  simp [WellNamed, patterns, or_imp, forall_and]

/-! ### The canonical text is spelled normally -/

theorem toList_grouped_true (text : String) :
    (grouped true text).toList = '(' :: (text.toList ++ [')']) := by
  simp [grouped]

theorem normal_grouped {group : Bool} {text : String} (h : Spelling.Normal text.toList) :
    Spelling.Normal (grouped group text).toList := by
  cases group with
  | false => exact h
  | true =>
    have hopening : Spelling.Normal ['('] := Spelling.normal_of_all (by decide)
    have hclosing : Spelling.Normal [')'] := Spelling.normal_of_all (by decide)
    rw [toList_grouped_true]
    exact hopening.append (h.append hclosing)

theorem toList_text_and (left right : Expr) :
    (and left right).text.toList =
      (grouped left.isBinary left.text).toList ++ [' ', '&', '&', ' '] ++
        (grouped right.isBinary right.text).toList := by
  rw [text, String.toList_append, String.toList_append]
  rfl

theorem toList_text_or (left right : Expr) :
    (or left right).text.toList =
      (grouped left.isBinary left.text).toList ++ [' ', '|', '|', ' '] ++
        (grouped right.isBinary right.text).toList := by
  rw [text, String.toList_append, String.toList_append]
  rfl

/-- Two texts around an operator that has a blank at either side. -/
theorem normal_infix {c : Char} (hc : c = '|' ∨ c = '&') {xs ys : List Char}
    (hxs : Spelling.Normal xs) (hys : Spelling.Normal ys) :
    Spelling.Normal (xs ++ [' ', c, c, ' '] ++ ys) := by
  have hmiddle : Spelling.Normal [' ', c, c, ' '] := by
    rcases hc with rfl | rfl <;> exact fun _ => rfl
  exact (hxs.append hmiddle).append hys

theorem normal_text {e : Expr} (h : e.WellNamed) : Spelling.Normal e.text.toList := by
  induction e with
  | literal value => cases value <;> exact Spelling.normal_of_all (by decide)
  | pattern text =>
    exact Spelling.normal_of_forall fun c hc =>
      Spelling.isOperatorChar_of_isWordChar ((wellNamed_pattern.mp h).wordChars c hc)
  | and left right ihl ihr =>
    obtain ⟨hleft, hright⟩ := wellNamed_and.mp h
    rw [toList_text_and]
    exact normal_infix (.inr rfl) (normal_grouped (ihl hleft)) (normal_grouped (ihr hright))
  | or left right ihl ihr =>
    obtain ⟨hleft, hright⟩ := wellNamed_or.mp h
    rw [toList_text_or]
    exact normal_infix (.inl rfl) (normal_grouped (ihl hleft)) (normal_grouped (ihr hright))

/-! ### The tokens of the canonical text -/

/-- The tokens of two texts around an operator that has a blank at either side. -/
theorem scanFrom_infix {position : Nat} {xs : List Char} {c : Char} {operator : Token.Kind}
    (hc : c = '|' ∧ operator = .or ∨ c = '&' ∧ operator = .and)
    (h : Token.Recognized (scanFrom position xs)) (ys : List Char) :
    scanFrom position (xs ++ [' ', c, c, ' '] ++ ys) =
      scanFrom position xs ++ ⟨operator, position + Text.extent xs + 1⟩ ::
        scanFrom (position + Text.extent xs + 4) ys := by
  have hoperator : Token.operatorAt c (c :: ' ' :: ys) = some operator := by
    rcases hc with ⟨rfl, rfl⟩ | ⟨rfl, rfl⟩ <;> rfl
  have hboundary : ∀ x ∈ xs.getLast?, ∀ y ∈ ([' ', c, c, ' '] ++ ys).head?,
      Token.isWordChar x = true → Token.isWordChar y = false := by
    intro x _ y hy _
    obtain rfl : ' ' = y := Option.some.inj hy
    decide
  rw [List.append_assoc, Token.scanFrom_append h hboundary]
  congr 1
  simp only [List.cons_append, List.nil_append]
  rw [Token.scanFrom_blank (by decide), Token.scanFrom_operator hoperator, List.tail_cons,
    Token.scanFrom_blank (by decide)]
  rfl

/-- The one token of a leaf. -/
theorem derives_scanFrom_leaf {e : Expr} (h : e.WellNamed) (hleaf : e.isBinary = false)
    (position : Nat) : Derives .term 0 e (scanFrom position e.text.toList) := by
  cases e with
  | literal value =>
    cases value with
    | true =>
      rw [show (literal true).text.toList = ['t', 'r', 'u', 'e'] from rfl,
        Token.scanFrom_word (by decide) (List.all_eq_true.mp (by decide))]
      exact .literal rfl
    | false =>
      rw [show (literal false).text.toList = ['f', 'a', 'l', 's', 'e'] from rfl,
        Token.scanFrom_word (by decide) (List.all_eq_true.mp (by decide))]
      exact .literal rfl
  | pattern text =>
    have hname := wellNamed_pattern.mp h
    rw [Expr.text, Token.scanFrom_word hname.ne_nil hname.wordChars, hname.ofWord_toList]
    exact .pattern rfl
  | and left right => simp [isBinary] at hleaf
  | or left right => simp [isBinary] at hleaf

/-- What is a disjunction is a term once it stands in parentheses. -/
theorem derives_scanFrom_group {n position : Nat} {e : Expr} {cs : List Char}
    (h : Derives .disjunction n e (scanFrom (position + 1) cs)) :
    Derives .term (n + 1) e (scanFrom position ('(' :: (cs ++ [')']))) := by
  rw [Token.scanFrom_opening, Token.scanFrom_append h.recognized (by simp [Token.isWordChar]),
    Token.scanFrom_closing, Token.scanFrom_nil]
  exact .group rfl h rfl

/-- The tokens of an operand: a group if it is binary, its one token if it is not. -/
theorem derives_scanFrom_grouped {e : Expr} (h : e.WellNamed)
    (htext : ∀ position, Derives .disjunction e.nest e (scanFrom position e.text.toList))
    (position : Nat) :
    Derives .term (if e.isBinary then 1 + e.nest else 0) e
      (scanFrom position (grouped e.isBinary e.text).toList) := by
  cases hbinary : e.isBinary with
  | false => exact derives_scanFrom_leaf h hbinary position
  | true =>
    rw [toList_grouped_true, if_pos rfl, Nat.add_comm]
    exact derives_scanFrom_group (htext _)

/-- **The tokens of the canonical text are a phrase for the tree**, with as many groups open as
the tree is nested. -/
theorem derives_scanFrom_text {e : Expr} (h : e.WellNamed) (position : Nat) :
    Derives .disjunction e.nest e (scanFrom position e.text.toList) := by
  induction e generalizing position with
  | literal value => exact (derives_scanFrom_leaf h rfl position).disjunction_of_term
  | pattern text => exact (derives_scanFrom_leaf h rfl position).disjunction_of_term
  | and left right ihl ihr =>
    obtain ⟨hl, hr⟩ := wellNamed_and.mp h
    have hleft := derives_scanFrom_grouped hl (ihl hl) position
    have hright := derives_scanFrom_grouped hr (ihr hr)
    rw [toList_text_and, scanFrom_infix (.inr ⟨rfl, rfl⟩) hleft.recognized]
    exact .ofConjunction (.and (.ofTerm hleft) rfl (hright _))
  | or left right ihl ihr =>
    obtain ⟨hl, hr⟩ := wellNamed_or.mp h
    have hleft := derives_scanFrom_grouped hl (ihl hl) position
    have hright := derives_scanFrom_grouped hr (ihr hr)
    rw [toList_text_or, scanFrom_infix (.inl ⟨rfl, rfl⟩) hleft.recognized]
    exact .or hleft.disjunction_of_term rfl (.ofTerm (hright _))

/-! ### Reading the canonical text -/

/-- What reading the canonical text gives under any limits. The length is looked at first, then
the nesting, and nothing else can go wrong. -/
theorem ofText_text_of_wellNamed {e : Expr} (h : e.WellNamed) (settings : Settings) :
    ofText settings e.text =
      if settings.maxLength.toNat < e.text.utf8ByteSize then
        .error (.tooLong e.text.utf8ByteSize settings.maxLength.toNat)
      else if settings.maxNesting.toNat < e.nest then
        .error (.tooDeep settings.maxNesting.toNat)
      else .ok e := by
  have htokens : Derives .disjunction e.nest e (tokensOf e.text) := by
    rw [tokensOf, (normal_text h).normalize_eq]
    exact derives_scanFrom_text h 0
  rw [ofText, ofTokens_of_derives htokens]
  split
  · rfl
  · by_cases hnest : e.nest ≤ settings.maxNesting.toNat
    · rw [if_pos hnest, if_neg (Nat.not_lt.mpr hnest)]
    · rw [if_neg hnest, if_pos (Nat.lt_of_not_le hnest)]

/-- The patterns of the tree that a text spells are the pattern tokens of the text. -/
theorem patterns_of_ofText {settings : Settings} {raw : String} {e : Expr}
    (h : ofText settings raw = .ok e) :
    e.patterns = (tokensOf raw).filterMap Token.pattern? := by
  obtain ⟨-, n, -, hts⟩ := derives_of_ofText h
  exact hts.patterns_eq

/-- The trees that texts spell are well named. -/
theorem wellNamed_of_ofText {settings : Settings} {raw : String} {e : Expr}
    (h : ofText settings raw = .ok e) : e.WellNamed := by
  intro p hp
  rw [patterns_of_ofText h] at hp
  obtain ⟨t, ht, htext⟩ := List.mem_filterMap.mp hp
  exact Token.isName_of_mem_scanFrom ht (Token.pattern?_eq_some.mp htext)

/-- **Writing a tree and reading it back is the identity, up to the limits.** If the patterns of
`e` are names, its canonical text is spelled normally, and reading it gives `e` unless the text is
too long or, failing that, nests too deep. The patterns of every tree that a text spells are
names. -/
theorem ofText_text (settings : Settings) (e : Expr) :
    (e.WellNamed →
      Spelling.normalize e.text = e.text ∧
        ofText settings e.text =
          if settings.maxLength.toNat < e.text.utf8ByteSize then
            .error (.tooLong e.text.utf8ByteSize settings.maxLength.toNat)
          else if settings.maxNesting.toNat < e.nest then
            .error (.tooDeep settings.maxNesting.toNat)
          else .ok e) ∧
      ∀ raw, ofText settings raw = .ok e → e.WellNamed :=
  ⟨fun h => ⟨(normal_text h).normalize_eq, ofText_text_of_wellNamed h settings⟩,
    fun _ => wellNamed_of_ofText⟩

/-- The canonical text `(a || b) && c`, which needs one group, where none may be opened and where
one may. -/
theorem ofText_text_grouped_or :
    ofText ⟨0, 13, 0⟩ "(a || b) && c" = .error (.tooDeep 0) ∧
      ofText ⟨0, 13, 1⟩ "(a || b) && c" =
        .ok (.and (.or (.pattern "a") (.pattern "b")) (.pattern "c")) := by
  have h : (and (or (pattern "a") (pattern "b")) (pattern "c")).WellNamed := by
    simp only [wellNamed_and, wellNamed_or, wellNamed_pattern]
    refine ⟨⟨?_, ?_⟩, ?_⟩ <;>
      exact ⟨by decide, List.all_eq_true.mp (by decide), by decide, by decide⟩
  exact ⟨((ofText_text ⟨0, 13, 0⟩ _).1 h).2, ((ofText_text ⟨0, 13, 1⟩ _).1 h).2⟩

/-! ### Chains -/

/-- A pattern, joined `n` times to itself. The operators associate to the left. -/
def chain : Nat → Expr
  | 0 => pattern "a"
  | n + 1 => and (chain n) (pattern "a")

/-- The text of a chain as one would write it, without groups. -/
def chainText : Nat → String
  | 0 => "a"
  | n + 1 => chainText n ++ " && " ++ "a"

theorem toList_chainText_succ (n : Nat) :
    (chainText (n + 1)).toList = (chainText n).toList ++ [' ', '&', '&', ' '] ++ ['a'] := by
  rw [chainText, String.toList_append, String.toList_append]
  rfl

theorem utf8ByteSize_chainText (n : Nat) : (chainText n).utf8ByteSize = 5 * n + 1 := by
  induction n with
  | zero => rfl
  | succ n ih =>
    rw [chainText, String.utf8ByteSize_append, String.utf8ByteSize_append, ih]
    rfl

/-- In the canonical text of a chain every operand but the first two costs one more group. -/
theorem nest_chain (n : Nat) : (chain (n + 1)).nest = n := by
  induction n with
  | zero => rfl
  | succ n ih =>
    rw [chain, nest, ih]
    simp [chain, isBinary, Nat.add_comm]

theorem normal_chainText (n : Nat) : Spelling.Normal (chainText n).toList := by
  induction n with
  | zero => exact Spelling.normal_of_all (by decide)
  | succ n ih =>
    rw [toList_chainText_succ]
    exact normal_infix (.inr rfl) ih (Spelling.normal_of_all (by decide))

/-- The text of a chain opens no group at all. -/
theorem derives_scanFrom_chainText (n : Nat) (position : Nat) :
    Derives .conjunction 0 (chain n) (scanFrom position (chainText n).toList) := by
  have hlast : ∀ position, Derives .term 0 (pattern "a") (scanFrom position ['a']) := by
    intro position
    rw [Token.scanFrom_word (by decide) (List.all_eq_true.mp (by decide))]
    exact .pattern rfl
  induction n with
  | zero => exact .ofTerm (hlast position)
  | succ n ih =>
    rw [toList_chainText_succ, scanFrom_infix (.inr ⟨rfl, rfl⟩) ih.recognized]
    exact .and ih rfl (hlast _)

/-- A chain is accepted wherever its text is short enough. -/
theorem ofText_chainText {settings : Settings} {n : Nat}
    (h : 5 * n + 1 ≤ settings.maxLength.toNat) : ofText settings (chainText n) = .ok (chain n) := by
  have htokens : Derives .disjunction 0 (chain n) (tokensOf (chainText n)) := by
    rw [tokensOf, (normal_chainText n).normalize_eq]
    exact .ofConjunction (derives_scanFrom_chainText n 0)
  exact ofText_of_derives (by rwa [utf8ByteSize_chainText]) htokens (Nat.zero_le _)

/-! ### Where the canonical text is refused -/

/-- **When the canonical text of an expression is an expression again** under the default limits:
exactly when it takes no more than 4096 bytes and nests no deeper than 64. Where it is read at
all, it is read as the same tree. -/
theorem ofText_text_defaults_iff {raw : String} {e : Expr} (h : ofText .defaults raw = .ok e) :
    (ofText .defaults e.text = .ok e ↔ e.text.utf8ByteSize ≤ 4096 ∧ e.nest ≤ 64) ∧
      ∀ e', ofText .defaults e.text = .ok e' → e' = e := by
  have hlength : Settings.defaults.maxLength.toNat = 4096 := rfl
  have hnesting : Settings.defaults.maxNesting.toNat = 64 := rfl
  have htext := ofText_text_of_wellNamed (wellNamed_of_ofText h) .defaults
  rw [hlength, hnesting] at htext
  by_cases hlong : 4096 < e.text.utf8ByteSize
  · rw [htext, if_pos hlong]
    simp [Nat.not_le.mpr hlong]
  · by_cases hdeep : 64 < e.nest
    · rw [htext, if_neg hlong, if_pos hdeep]
      simp [Nat.not_le.mpr hdeep]
    · rw [htext, if_neg hlong, if_neg hdeep]
      simp [Nat.le_of_not_lt hlong, Nat.le_of_not_lt hdeep, eq_comm]

/-- A chain of three patterns, whose canonical text is `(a && a) && a`. -/
theorem ofText_text_defaults_short_chain : ofText .defaults (chain 2).text = .ok (chain 2) :=
  (ofText_text_defaults_iff (ofText_chainText (n := 2) (by decide))).1.mpr (by decide)

/-- A chain of 67 patterns is an expression, and its canonical text is none. -/
theorem ofText_text_chain_ne :
    ¬ ∀ raw e, ofText .defaults raw = .ok e → ofText .defaults e.text = .ok e := by
  intro h
  have hchain : ofText .defaults (chainText 66) = .ok (chain 66) := ofText_chainText (by decide)
  have hagain := h _ _ hchain
  rw [ofText_text_of_wellNamed (wellNamed_of_ofText hchain), nest_chain] at hagain
  split at hagain
  · simp at hagain
  · rw [if_pos (by decide)] at hagain
    simp at hagain

end Expr

end AccessRules
