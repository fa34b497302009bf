import AccessRules.Json.Read.Skip
import AccessRules.Proofs.StringLiterals

/-!
# JSON values are passed over whole

A reader that does not need a value has to find its end all the same. Whatever the value is, and
however deeply brackets, quotes and escapes are nested in it, what is left after it is exactly what
stands behind it.

## Main definitions

* `Json.StringText`, `Json.NumberText`, `Json.Scalar`: the values without parts
* `Json.WellFormed`: values, and the entries between two brackets
* `Json.Delimited`: what may follow a value

## Main statements

* `Json.Scalar.skips`: values without parts are passed over
* `Json.WellFormed.skips`: all values are
* `Json.skipValue_append`: the same for a value with blanks before it

## Implementation notes

The grammar is the one of the format and knows nothing of the reader: it has no stack of brackets
and no flag that tells whether an entry has just ended. Arrays and objects are one rule, with a
label before the value of an entry that is empty in an array. A number has no end of its own, hence
`Delimited`; every other value ends by itself, but what follows a value in a document is delimited
in any case.

`StringText` is wider than `Denotes`: an escape may write half a surrogate pair, since a string
that nobody reads does not have to denote a text.
-/

namespace AccessRules.Json

open Fault (before within)

/-! ### The grammar -/

/-- The inside of a string that does not have to denote a text. -/
inductive StringText : List Char → Prop where
  | nil : StringText []
  | plain {c : Char} {body : List Char} (hc : isPlain c = true) (h : StringText body) :
      StringText (c :: body)
  | short {letter c : Char} {body : List Char} (hc : (letter, c) ∈ shortForms)
      (h : StringText body) : StringText ('\\' :: letter :: body)
  | unit {n : Nat} {ds body : List Char} (hds : HexUnit ds n) (h : StringText body) :
      StringText ('\\' :: 'u' :: (ds ++ body))

/-- One or more digits. -/
def SomeDigits (ds : List Char) : Prop :=
  ds ≠ [] ∧ ∀ c ∈ ds, c.isDigit = true

/-- The part of a number from its point on. -/
inductive Fraction : List Char → Prop where
  | none : Fraction []
  | some {ds : List Char} (h : SomeDigits ds) : Fraction ('.' :: ds)

/-- The part of a number from the letter of its exponent on. -/
inductive Exponent : List Char → Prop where
  | none : Exponent []
  | some {e : Char} {sign ds : List Char} (he : e = 'e' ∨ e = 'E')
      (hsign : sign = [] ∨ sign = ['+'] ∨ sign = ['-']) (h : SomeDigits ds) :
      Exponent (e :: (sign ++ ds))

/-- A number: a sign, digits without a needless zero in front, a fraction and an exponent. -/
inductive NumberText : List Char → Prop where
  | mk {sign ds fraction exponent : List Char} (hsign : sign = [] ∨ sign = ['-'])
      (hds : SomeDigits ds) (hzero : ds.head? = some '0' → ds = ['0']) (hf : Fraction fraction)
      (he : Exponent exponent) : NumberText (sign ++ (ds ++ (fraction ++ exponent)))

/-- A value without parts. -/
inductive Scalar : List Char → Prop where
  | word {cs : List Char} (h : cs ∈ ["null".toList, "true".toList, "false".toList]) : Scalar cs
  | number {cs : List Char} (h : NumberText cs) : Scalar cs
  | string {body : List Char} (h : StringText body) : Scalar ('"' :: (body ++ ['"']))

/-- The character that opens a bracket. -/
def Bracket.opening : Bracket → Char
  | array => '['
  | object => '\x7b'

/-- What stands before the value of an entry: in an object a key and a colon. -/
inductive Label : Bracket → List Char → Prop where
  | item : Label .array []
  | member {b key b' : List Char} (hb : Blanks b) (hkey : StringText key) (hb' : Blanks b') :
      Label .object (b ++ '"' :: (key ++ '"' :: (b' ++ [':'])))

/-- The two kinds of phrases. -/
inductive Form where
  | value
  /-- One or more entries between brackets, with commas between them. -/
  | entries (bracket : Bracket)

/-- The phrases of JSON. -/
inductive WellFormed : Form → List Char → Prop where
  | scalar {cs : List Char} (h : Scalar cs) : WellFormed .value cs
  /-- Brackets without entries. -/
  | empty {bracket : Bracket} {b : List Char} (hb : Blanks b) :
      WellFormed .value (bracket.opening :: (b ++ [bracket.closing]))
  /-- Brackets around entries. -/
  | bracketed {bracket : Bracket} {cs : List Char} (h : WellFormed (.entries bracket) cs) :
      WellFormed .value (bracket.opening :: (cs ++ [bracket.closing]))
  /-- The last entry. -/
  | last {bracket : Bracket} {label b v b' : List Char} (hlabel : Label bracket label)
      (hb : Blanks b) (hv : WellFormed .value v) (hb' : Blanks b') :
      WellFormed (.entries bracket) (label ++ (b ++ (v ++ b')))
  /-- An entry and those after it. -/
  | more {bracket : Bracket} {label b v b' cs : List Char} (hlabel : Label bracket label)
      (hb : Blanks b) (hv : WellFormed .value v) (hb' : Blanks b')
      (h : WellFormed (.entries bracket) cs) :
      WellFormed (.entries bracket) (label ++ (b ++ (v ++ (b' ++ ',' :: cs))))

/-! ### What may follow a value -/

/-- A text that begins with a blank, a comma or a closing bracket, if it begins at all. -/
def Delimited (cs : List Char) : Prop :=
  ∀ c ∈ cs.head?, isBlank c = true ∨ c = ',' ∨ c = ']' ∨ c = '\x7d'

theorem delimited_nil : Delimited [] := by
  simp [Delimited]

theorem delimited_comma (cs : List Char) : Delimited (',' :: cs) := by
  simp [Delimited]

theorem delimited_closing (bracket : Bracket) (cs : List Char) :
    Delimited (bracket.closing :: cs) := by
  cases bracket <;> simp [Delimited, Bracket.closing]

theorem Delimited.blanks_append {b cs : List Char} (hb : Blanks b) (h : Delimited cs) :
    Delimited (b ++ cs) := by
  cases b with
  | nil => exact h
  | cons c b =>
    intro d hd
    obtain rfl : c = d := by simpa using hd
    exact .inl (hb c List.mem_cons_self)

/-- A text that goes on no number. -/
theorem Delimited.not_continues {cs : List Char} (h : Delimited cs) :
    ∀ c ∈ cs.head?, c.isDigit = false ∧ c ≠ '.' ∧ c ≠ 'e' ∧ c ≠ 'E' := by
  intro c hc
  rcases h c hc with hblank | rfl | rfl | rfl
  · simp only [isBlank, Bool.or_eq_true, beq_iff_eq] at hblank
    rcases hblank with ((rfl | rfl) | rfl) | rfl <;> decide
  all_goals decide

/-! ### Strings -/

theorem skipString_quote (cs : List Char) : skipString ('"' :: cs) = .ok cs := by
  simp [skipString]

theorem skipString_backslash {cs rest : List Char} (h : skipEscape cs = .ok rest) :
    skipString ('\\' :: cs) = skipString rest := by
  rw [skipString, if_neg (by decide), if_pos rfl]
  split
  · next heq => cases h.symm.trans heq
  · next heq =>
    cases h.symm.trans heq
    rfl

theorem skipString_plain {c : Char} (hc : isPlain c = true) (cs : List Char) :
    skipString (c :: cs) = skipString cs := by
  simp only [isPlain, Bool.and_eq_true, bne_iff_ne, ne_eq, Bool.not_eq_true'] at hc
  obtain ⟨⟨hquote, hbackslash⟩, hcontrol⟩ := hc
  rw [skipString, if_neg hquote, if_neg hbackslash, hcontrol]
  rfl

/-- **A string is passed over** up to its closing quote, with all quotes that are escaped. -/
theorem StringText.skipString_eq {body : List Char} (h : StringText body) (rest : List Char) :
    skipString (body ++ '"' :: rest) = .ok rest := by
  induction h with
  | nil => exact skipString_quote rest
  | plain hc _ ih => rw [List.cons_append, skipString_plain hc, ih]
  | @short letter c body hc _ ih =>
    have hescape : skipEscape (letter :: (body ++ '"' :: rest)) = .ok (body ++ '"' :: rest) := by
      simp only [skipEscape, shortEscape?_eq_some_iff.mpr hc]
    rw [List.cons_append, List.cons_append, skipString_backslash hescape, ih]
  | @unit n ds body hds _ ih =>
    have hu : shortEscape? 'u' = none := rfl
    have hread : readHex (ds ++ (body ++ '"' :: rest)) = .ok (n, body ++ '"' :: rest) :=
      readHex_eq_ok_iff.mpr ⟨ds, hds, rfl⟩
    have hescape : skipEscape ('u' :: (ds ++ (body ++ '"' :: rest))) =
        .ok (body ++ '"' :: rest) := by
      simp only [skipEscape, hu, if_true, hread]
      rfl
    rw [List.cons_append, List.cons_append, List.append_assoc, skipString_backslash hescape, ih]

/-! ### Numbers -/

theorem skipDigits_append {ds rest : List Char} (hds : ∀ c ∈ ds, c.isDigit = true)
    (hrest : ∀ c ∈ rest.head?, c.isDigit = false) : skipDigits (ds ++ rest) = rest := by
  rw [skipDigits, List.dropWhile_append_of_pos hds]
  cases rest with
  | nil => rfl
  | cons c rest =>
    rw [List.dropWhile_cons_of_neg]
    simp [hrest c (by simp)]

theorem SomeDigits.exists_cons {ds : List Char} (h : SomeDigits ds) :
    ∃ c cs, ds = c :: cs ∧ c.isDigit = true := by
  obtain ⟨hne, hdigits⟩ := h
  cases ds with
  | nil => exact absurd rfl hne
  | cons c cs => exact ⟨c, cs, rfl, hdigits c List.mem_cons_self⟩

theorem skipSomeDigits_append {ds rest : List Char} (hds : SomeDigits ds)
    (hrest : ∀ c ∈ rest.head?, c.isDigit = false) : skipSomeDigits (ds ++ rest) = .ok rest := by
  have hskip := skipDigits_append hds.2 hrest
  obtain ⟨c, cs, rfl, hc⟩ := hds.exists_cons
  have hstarts : startsWithDigit (c :: cs ++ rest) = true := by simp [startsWithDigit, hc]
  rw [skipSomeDigits, hstarts, hskip]
  rfl

theorem takeSign_append {sign ds : List Char} (hsign : sign = [] ∨ sign = ['+'] ∨ sign = ['-'])
    (hds : SomeDigits ds) (rest : List Char) :
    (takeSign (sign ++ (ds ++ rest))).2 = ds ++ rest := by
  obtain ⟨c, cs, rfl, hc⟩ := hds.exists_cons
  have hplus : c ≠ '+' := by
    rintro rfl
    exact absurd hc (by decide)
  have hminus : c ≠ '-' := by
    rintro rfl
    exact absurd hc (by decide)
  rcases hsign with rfl | rfl | rfl
  · simp [takeSign, hplus, hminus]
  · rfl
  · rfl

theorem Exponent.skipScale_eq {exponent rest : List Char} (h : Exponent exponent)
    (hrest : Delimited rest) : skipScale (exponent ++ rest) = .ok rest := by
  cases h with
  | none =>
    cases rest with
    | nil => rfl
    | cons c rest =>
      obtain ⟨-, -, he, hE⟩ := hrest.not_continues c (by simp)
      rw [List.nil_append, skipScale, if_neg (by simp [he, hE])]
  | @some e sign ds he hsign hds =>
    rw [List.cons_append, List.append_assoc, skipScale, if_pos he, takeSign_append hsign hds]
    exact skipSomeDigits_append hds fun c hc => (hrest.not_continues c hc).1

/-- What follows the digits before the letter of an exponent. -/
theorem Exponent.isDigit_head {exponent rest : List Char} (h : Exponent exponent)
    (hrest : Delimited rest) : ∀ c ∈ (exponent ++ rest).head?, c.isDigit = false := by
  cases h with
  | none => exact fun c hc => (hrest.not_continues c hc).1
  | some he _ _ =>
    intro c hc
    obtain rfl := Option.some.inj hc
    rcases he with rfl | rfl <;> decide

theorem Fraction.skipRest_eq {fraction exponent rest : List Char} (hf : Fraction fraction)
    (he : Exponent exponent) (hrest : Delimited rest) :
    skipRest (fraction ++ (exponent ++ rest)) = .ok rest := by
  cases hf with
  | none =>
    have hscale := he.skipScale_eq hrest
    rw [List.nil_append]
    cases hcs : exponent ++ rest with
    | nil =>
      rw [hcs, skipScale] at hscale
      rw [skipRest, hscale]
    | cons c cs =>
      have hpoint : c ≠ '.' := by
        cases he with
        | none => exact (hrest.not_continues c (by rw [List.nil_append] at hcs; simp [hcs])).2.1
        | some he _ _ =>
          obtain ⟨rfl, -⟩ := List.cons.inj hcs
          rcases he with rfl | rfl <;> decide
      rw [skipRest, if_neg hpoint, ← hcs, hscale]
  | some hds =>
    rw [List.cons_append, skipRest, if_pos rfl,
      skipSomeDigits_append hds (he.isDigit_head hrest)]
    exact he.skipScale_eq hrest

/-- No needless zero is found where none is written: a zero in front is the only digit, so what
follows it is no digit. -/
theorem not_needless_zero {c : Char} {cs rest : List Char}
    (hzero : (c :: cs).head? = some '0' → c :: cs = ['0'])
    (hrest : ∀ c ∈ rest.head?, c.isDigit = false) :
    ¬ (c = '0' ∧ startsWithDigit (cs ++ rest) = true) := by
  rintro ⟨rfl, hstarts⟩
  obtain rfl : cs = [] := (List.cons.inj (hzero rfl)).2
  rw [List.nil_append, startsWithDigit, Option.any_eq_true] at hstarts
  obtain ⟨d, hd, hdigit⟩ := hstarts
  exact absurd hdigit (by simp [hrest d hd])

/-- Behind its sign a number is passed over. -/
theorem skipUnsigned_append {ds fraction exponent rest : List Char} (hds : SomeDigits ds)
    (hzero : ds.head? = some '0' → ds = ['0']) (hf : Fraction fraction) (he : Exponent exponent)
    (hrest : Delimited rest) :
    skipUnsigned (ds ++ (fraction ++ (exponent ++ rest))) = .ok rest := by
  have hhead : ∀ c ∈ (fraction ++ (exponent ++ rest)).head?, c.isDigit = false := by
    cases hf with
    | none => exact he.isDigit_head hrest
    | some _ =>
      intro c hc
      obtain rfl := Option.some.inj hc
      decide
  have hskip := skipDigits_append hds.2 hhead
  obtain ⟨c, cs, rfl, hc⟩ := hds.exists_cons
  have hneedless := not_needless_zero hzero hhead
  have hafter : skipDigits (c :: cs ++ (fraction ++ (exponent ++ rest))) =
      skipDigits (cs ++ (fraction ++ (exponent ++ rest))) := by
    rw [List.cons_append, skipDigits, List.dropWhile_cons_of_pos hc, skipDigits]
  rw [List.cons_append, skipUnsigned, if_neg (by simp [hc]), if_neg hneedless, ← hafter, hskip]
  exact hf.skipRest_eq he hrest

/-! ### Values without parts -/

theorem skipWord_append (word rest : List Char) : skipWord (word ++ rest) word = .ok rest := by
  induction word with
  | nil => simp [skipWord]
  | cons c word ih => rw [List.cons_append, skipWord, if_pos rfl, ih]

/-- A character that begins a value: it neither is passed over as a blank nor closes a bracket. -/
def Begins (c : Char) : Prop :=
  isBlank c = false ∧ ∀ bracket : Bracket, c ≠ bracket.closing

theorem begins_of {c : Char} (hblank : isBlank c = false) (hsquare : c ≠ ']')
    (hcurly : c ≠ '\x7d') : Begins c := by
  refine ⟨hblank, fun bracket => ?_⟩
  cases bracket with
  | array => exact hsquare
  | object => exact hcurly

/-- A character that is a digit is nothing else that begins a value. -/
theorem begins_of_isDigit {c : Char} (hc : c.isDigit = true) :
    Begins c ∧ wordTail? c = none ∧ c ≠ '"' ∧ c ≠ '-' ∧ Bracket.ofOpening? c = none := by
  have hne : ∀ {d : Char}, d.isDigit = false → c ≠ d := by
    rintro d hd rfl
    cases hc.symm.trans hd
  refine ⟨begins_of ?_ (hne (by decide)) (hne (by decide)), ?_, hne (by decide),
    hne (by decide), ?_⟩
  · have hspace : c ≠ ' ' := hne (by decide)
    have htab : c ≠ '\t' := hne (by decide)
    have hnewline : c ≠ '\n' := hne (by decide)
    have hreturn : c ≠ '\r' := hne (by decide)
    simp [isBlank, hspace, htab, hnewline, hreturn]
  · have hn : c ≠ 'n' := hne (by decide)
    have ht : c ≠ 't' := hne (by decide)
    have hf : c ≠ 'f' := hne (by decide)
    simp [wordTail?, hn, ht, hf]
  · have hsquare : c ≠ '[' := hne (by decide)
    have hcurly : c ≠ '\x7b' := hne (by decide)
    simp [Bracket.ofOpening?, hsquare, hcurly]

/-- **A value without parts is passed over.** -/
theorem Scalar.skips {v rest : List Char} (h : Scalar v) (hrest : Delimited rest) :
    ∃ c cs, v = c :: cs ∧ Begins c ∧ Bracket.ofOpening? c = none ∧
      skipScalar c (cs ++ rest) = .ok rest := by
  cases h with
  | word h =>
    simp only [List.mem_cons, List.not_mem_nil, or_false] at h
    rcases h with rfl | rfl | rfl
    · exact ⟨'n', _, rfl, begins_of (by decide) (by decide) (by decide), by decide,
        skipWord_append ['u', 'l', 'l'] rest⟩
    · exact ⟨'t', _, rfl, begins_of (by decide) (by decide) (by decide), by decide,
        skipWord_append ['r', 'u', 'e'] rest⟩
    · exact ⟨'f', _, rfl, begins_of (by decide) (by decide) (by decide), by decide,
        skipWord_append ['a', 'l', 's', 'e'] rest⟩
  | string h =>
    refine ⟨'"', _, rfl, begins_of (by decide) (by decide) (by decide), by decide, ?_⟩
    rw [List.append_assoc, List.singleton_append]
    exact h.skipString_eq rest
  | number h =>
    cases h with
    | @mk sign ds fraction exponent hsign hds hzero hf he =>
      have hskip := skipUnsigned_append hds hzero hf he hrest
      rcases hsign with rfl | rfl
      · obtain ⟨c, cs, rfl, hc⟩ := hds.exists_cons
        obtain ⟨hbegin, hword, hquote, hminus, hopening⟩ := begins_of_isDigit hc
        refine ⟨c, cs ++ (fraction ++ exponent), rfl, hbegin, hopening, ?_⟩
        simp only [skipScalar, hword, hquote, hminus, hc, if_true, if_false, List.append_assoc]
        exact hskip
      · refine ⟨'-', ds ++ (fraction ++ exponent), rfl,
          begins_of (by decide) (by decide) (by decide), by decide, ?_⟩
        rw [List.append_assoc, List.append_assoc]
        exact hskip

/-! ### Arrays and objects -/

/-- Blanks before a value are passed over. -/
theorem skipWithin_blanks {b : List Char} (hb : Blanks b) (around : List Bracket) (cs : List Char) :
    skipWithin around (b ++ cs) = skipWithin around cs := by
  rw [skipWithin_eq, skipBlanks_append hb, ← skipWithin_eq]

theorem skipEntries_blanks {b : List Char} (hb : Blanks b) (bracket : Bracket)
    (around : List Bracket) (afterEntry : Bool) (cs : List Char) :
    skipEntries bracket around afterEntry (b ++ cs) = skipEntries bracket around afterEntry cs := by
  rw [skipEntries_eq, skipBlanks_append hb, ← skipEntries_eq]

theorem isBlank_closing (bracket : Bracket) : isBlank bracket.closing = false := by
  cases bracket <;> decide

/-- A closing bracket ends what it closes. -/
theorem skipEntries_closing (bracket : Bracket) (around : List Bracket) (afterEntry : Bool)
    (rest : List Char) :
    skipEntries bracket around afterEntry (bracket.closing :: rest) = skipAround around rest := by
  rw [skipEntries_eq, skipBlanks_cons (isBlank_closing bracket)]
  exact if_pos rfl

/-- After an entry, a comma leads to the next one. -/
theorem skipEntries_comma (bracket : Bracket) (around : List Bracket) (cs : List Char) :
    skipEntries bracket around true (',' :: cs) =
      skipKey bracket cs >>= skipWithin (bracket :: around) := by
  have hclosing : ',' ≠ bracket.closing := by cases bracket <;> decide
  rw [skipEntries_eq, skipBlanks_cons (by decide)]
  simp only [hclosing, if_false, ne_eq, not_true_eq_false, and_false]
  rfl

/-- Behind an opening bracket, what does not close it is an entry. -/
theorem skipEntries_first {bracket : Bracket} {c : Char} {cs rest : List Char}
    (hc : c ≠ bracket.closing) (hcs : skipBlanks cs = c :: rest) (around : List Bracket) :
    skipEntries bracket around false cs =
      skipKey bracket cs >>= skipWithin (bracket :: around) := by
  -- the blanks before an entry are passed over by the reader of its label or of its value
  have hlabel : (skipKey bracket (c :: rest) >>= skipWithin (bracket :: around)) =
      skipKey bracket cs >>= skipWithin (bracket :: around) := by
    obtain ⟨b, hb, hsplit⟩ := exists_eq_append_skipBlanks cs
    rw [hcs] at hsplit
    subst hsplit
    cases bracket with
    | array =>
      have hblanks := skipWithin_blanks hb (.array :: around) (c :: rest)
      exact hblanks.symm
    | object =>
      rw [skipBlanks_append hb] at hcs
      simp only [skipKey, skipBlanks_append hb]
  rw [skipEntries_eq, hcs]
  simp only [hc, if_false, Bool.false_eq_true, false_and]
  exact hlabel

theorem Bracket.ofOpening?_opening (bracket : Bracket) :
    ofOpening? bracket.opening = some bracket := by
  cases bracket <;> decide

theorem begins_opening (bracket : Bracket) : Begins bracket.opening := by
  refine ⟨?_, fun bracket' => ?_⟩
  · cases bracket <;> decide
  · cases bracket <;> cases bracket' <;> decide

/-- An opening bracket leads to its entries. -/
theorem skipWithin_opening (bracket : Bracket) (around : List Bracket) (cs : List Char) :
    skipWithin around (bracket.opening :: cs) = skipEntries bracket around false cs := by
  rw [skipWithin_eq, skipBlanks_cons (begins_opening bracket).1]
  simp only [bracket.ofOpening?_opening]

theorem skipColon_append {b : List Char} (hb : Blanks b) (cs : List Char) :
    skipColon (b ++ ':' :: cs) = .ok cs := by
  rw [skipColon, skipBlanks_append hb, skipBlanks_cons (by decide)]
  exact if_pos rfl

/-- The label of an entry is passed over. -/
theorem Label.skipKey_eq {bracket : Bracket} {label : List Char} (h : Label bracket label)
    (cs : List Char) : skipKey bracket (label ++ cs) = .ok cs := by
  cases h with
  | item => rfl
  | @member b key b' hb hkey hb' =>
    have htext : b ++ '"' :: (key ++ '"' :: (b' ++ [':'])) ++ cs =
        b ++ '"' :: (key ++ '"' :: (b' ++ ':' :: cs)) := by simp
    rw [htext, skipKey, skipBlanks_append hb, skipBlanks_cons (by decide)]
    simp only [if_true, hkey.skipString_eq]
    exact skipColon_append hb' cs

/-- What it means to pass over a phrase: a value in any surroundings, and entries up to the bracket
that closes them. -/
def Form.Skips : Form → List Char → Prop
  | .value, cs => ∀ around rest, Delimited rest →
      skipWithin around (cs ++ rest) = skipAround around rest
  | .entries bracket, cs => ∀ around rest,
      (skipKey bracket (cs ++ bracket.closing :: rest) >>= skipWithin (bracket :: around)) =
        skipAround around rest

/-- An entry begins with the quote of its key or, in an array, with its value. -/
theorem Label.exists_begins {bracket : Bracket} {label : List Char} (h : Label bracket label)
    {cs : List Char} (hcs : ∃ c cs', skipBlanks cs = c :: cs' ∧ Begins c) :
    ∃ c cs', skipBlanks (label ++ cs) = c :: cs' ∧ Begins c := by
  cases h with
  | item => exact hcs
  | member hb _ _ =>
    rw [List.append_assoc, skipBlanks_append hb, List.cons_append, skipBlanks_cons (by decide)]
    exact ⟨'"', _, rfl, begins_of (by decide) (by decide) (by decide)⟩

/-- Behind blanks, a phrase begins neither with a blank nor with a closing bracket. -/
theorem WellFormed.exists_begins {form : Form} {cs : List Char} (h : WellFormed form cs)
    (rest : List Char) : ∃ c cs', skipBlanks (cs ++ rest) = c :: cs' ∧ Begins c := by
  induction h generalizing rest with
  | scalar h =>
    obtain ⟨c, cs, rfl, hbegins, -⟩ := h.skips delimited_nil
    exact ⟨c, _, skipBlanks_cons hbegins.1 _, hbegins⟩
  | @empty bracket | @bracketed bracket =>
    exact ⟨bracket.opening, _, skipBlanks_cons (begins_opening bracket).1 _, begins_opening bracket⟩
  | last hlabel hb _ _ ih | more hlabel hb _ _ _ ih _ =>
    rw [List.append_assoc]
    refine hlabel.exists_begins ?_
    rw [List.append_assoc, List.append_assoc, skipBlanks_append hb]
    exact ih _

/-- **Every value is passed over whole**, in whatever brackets it stands. -/
theorem WellFormed.skips {form : Form} {cs : List Char} (h : WellFormed form cs) :
    form.Skips cs := by
  induction h with
  | scalar h =>
    intro around rest hrest
    obtain ⟨c, cs, rfl, hbegins, hopening, hskip⟩ := h.skips hrest
    rw [List.cons_append, skipWithin_eq, skipBlanks_cons hbegins.1]
    simp only [hopening, hskip]
    rfl
  | @empty bracket b hb =>
    intro around rest _
    rw [List.cons_append, skipWithin_opening, List.append_assoc, skipEntries_blanks hb,
      List.singleton_append, skipEntries_closing]
  | @bracketed bracket cs h ih =>
    intro around rest _
    obtain ⟨c, cs', hcs, hbegins⟩ := h.exists_begins (bracket.closing :: rest)
    rw [List.cons_append, skipWithin_opening, List.append_assoc, List.singleton_append,
      skipEntries_first (hbegins.2 bracket) hcs, ih]
  | @last bracket label b v b' hlabel hb _ hb' ih =>
    intro around rest
    have hrest : Delimited (b' ++ bracket.closing :: rest) :=
      (delimited_closing bracket rest).blanks_append hb'
    simp only [List.append_assoc]
    rw [hlabel.skipKey_eq]
    calc skipWithin (bracket :: around) (b ++ (v ++ (b' ++ bracket.closing :: rest)))
        = skipAround (bracket :: around) (b' ++ bracket.closing :: rest) := by
          rw [skipWithin_blanks hb, ih _ _ hrest]
      _ = skipAround around rest := by
          rw [skipAround, skipEntries_blanks hb', skipEntries_closing]
  | @more bracket label b v b' cs hlabel hb _ hb' _ ihv ih =>
    intro around rest
    have hrest : Delimited (b' ++ ',' :: (cs ++ bracket.closing :: rest)) :=
      (delimited_comma _).blanks_append hb'
    simp only [List.append_assoc, List.cons_append]
    rw [hlabel.skipKey_eq]
    calc skipWithin (bracket :: around)
          (b ++ (v ++ (b' ++ ',' :: (cs ++ bracket.closing :: rest))))
        = skipAround (bracket :: around) (b' ++ ',' :: (cs ++ bracket.closing :: rest)) := by
          rw [skipWithin_blanks hb, ihv _ _ hrest]
      _ = skipAround around rest := by
          rw [skipAround, skipEntries_blanks hb', skipEntries_comma, ih]

/-- **A value is passed over whole**, with the blanks before it, if what follows it is delimited. -/
theorem skipValue_append {b v rest : List Char} (hb : Blanks b) (hv : WellFormed .value v)
    (hrest : Delimited rest) : skipValue (b ++ (v ++ rest)) = .ok rest := by
  rw [skipValue, skipWithin_blanks hb, hv.skips [] rest hrest, skipAround]

end AccessRules.Json
