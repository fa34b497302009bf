import AccessRules.Proofs.PaddedWord
import AccessRules.Settings.OfLookup
import Mathlib.Data.List.Induction

/-!
# Settings are read as numerals

A setting of the environment is the number that its variable writes, and nothing else: where the
text is no numeral, or writes a number that 64 bits do not hold, the setting keeps its default.
A text is never read in part and a number is never cut down to its last bits.

## Main definitions

* `Decimal.Digits`, `Decimal.Numeral`: digits and numerals, with the number that they write
* `Settings.Holds`: a text holds a number

## Main statements

* `Decimal.digits_iff`: digits and their value, without induction
* `Decimal.count?_eq_some_iff`: the reader accepts the numerals of the numbers below `2 ^ 64`
* `Settings.parse?_eq_some_iff`: the same for texts with blanks around the numeral
* `Settings.ofLookup_reads_numerals`: what each setting of a lookup is

## Implementation notes

A digit appended on the right multiplies what stands before it by ten. `Digits` is the inductive
relation for that, so its value is the positional one by definition, and leading zeros need no
rule of their own. The reader works from the left; `Nat.ofDigitChars_append` connects the two.
-/

namespace AccessRules

namespace Decimal

/-- The character `c` is the digit of the number `k`. -/
def Digit (c : Char) (k : Nat) : Prop :=
  k < 10 ∧ c.toNat = '0'.toNat + k

/-- `Digits ds n`: `ds` are one or more digits, and the number that they write is `n`. -/
inductive Digits : List Char → Nat → Prop where
  /-- A digit writes its own number. -/
  | one {c : Char} {k : Nat} (h : Digit c k) : Digits [c] k
  /-- One more digit on the right counts ones, and what stands before it tens. -/
  | append {ds : List Char} {c : Char} {n k : Nat} (h : Digits ds n) (hc : Digit c k) :
      Digits (ds ++ [c]) (10 * n + k)

/-- `Numeral cs n`: `cs` are digits that write `n`, possibly behind a plus sign. -/
inductive Numeral : List Char → Nat → Prop where
  | plain {ds : List Char} {n : Nat} (h : Digits ds n) : Numeral ds n
  | plus {ds : List Char} {n : Nat} (h : Digits ds n) : Numeral ('+' :: ds) n

/-! ### Digits -/

theorem isDigit_iff_toNat {c : Char} : c.isDigit = true ↔ 48 ≤ c.toNat ∧ c.toNat ≤ 57 := by
  simp only [Char.isDigit, Bool.and_eq_true, decide_eq_true_eq]
  exact Iff.rfl

theorem isDigit_iff {c : Char} : c.isDigit = true ↔ ∃ k, Digit c k := by
  have hzero : '0'.toNat = 48 := rfl
  rw [isDigit_iff_toNat]
  constructor
  · intro h
    exact ⟨c.toNat - 48, by omega, by omega⟩
  · rintro ⟨k, hk, hc⟩
    omega

/-- A digit is a digit of one number. -/
theorem Digit.eq_sub {c : Char} {k : Nat} (h : Digit c k) : k = c.toNat - '0'.toNat := by
  have hc := h.2
  omega

theorem Digit.isBlank_eq_false {c : Char} {k : Nat} (h : Digit c k) : Text.isBlank c = false := by
  obtain ⟨hk, hc⟩ := h
  have hzero : '0'.toNat = 48 := rfl
  simp [Text.isBlank]
  omega

theorem ofDigits_append (ds : List Char) (c : Char) :
    ofDigits (ds ++ [c]) = 10 * ofDigits ds + (c.toNat - '0'.toNat) := by
  rw [ofDigits, Nat.ofDigitChars_append]
  rfl

/-- **Digits and their value.** -/
theorem digits_iff {ds : List Char} {n : Nat} :
    Digits ds n ↔ ds ≠ [] ∧ (∀ c ∈ ds, c.isDigit = true) ∧ ofDigits ds = n := by
  constructor
  · intro h
    induction h with
    | @one c k hc =>
      refine ⟨List.cons_ne_nil _ _, fun d hd => ?_, ?_⟩
      · rw [List.mem_singleton.mp hd]
        exact isDigit_iff.mpr ⟨k, hc⟩
      · have hvalue := ofDigits_append [] c
        rw [hc.eq_sub]
        simpa [ofDigits] using hvalue
    | @append ds c n k _ hc ih =>
      obtain ⟨-, hdigits, hvalue⟩ := ih
      refine ⟨by simp, fun d hd => ?_, ?_⟩
      · rcases List.mem_append.mp hd with hd | hd
        · exact hdigits d hd
        · rw [List.mem_singleton.mp hd]
          exact isDigit_iff.mpr ⟨k, hc⟩
      · rw [ofDigits_append, hvalue, ← hc.eq_sub]
  · rintro ⟨hne, hdigits, rfl⟩
    -- from the right, as the relation is built
    induction ds using List.reverseRecOn with
    | nil => exact absurd rfl hne
    | append_singleton ds c ih =>
      obtain ⟨k, hc⟩ := isDigit_iff.mp (hdigits c (by simp))
      rw [ofDigits_append, ← hc.eq_sub]
      by_cases hds : ds = []
      · subst hds
        have hone : Digits [c] k := .one hc
        simpa [ofDigits] using hone
      · exact .append (ih hds fun d hd => hdigits d (List.mem_append_left _ hd)) hc

/-- A numeral has no blanks. -/
theorem Numeral.isBlank_eq_false {cs : List Char} {n : Nat} (h : Numeral cs n) :
    ∀ c ∈ cs, Text.isBlank c = false := by
  have hdigits : ∀ {ds : List Char}, Digits ds n → ∀ c ∈ ds, Text.isBlank c = false := by
    intro ds hds c hc
    obtain ⟨k, hk⟩ := isDigit_iff.mp ((digits_iff.mp hds).2.1 c hc)
    exact hk.isBlank_eq_false
  cases h with
  | plain h => exact hdigits h
  | plus h =>
    intro c hc
    rcases List.mem_cons.mp hc with rfl | hc
    · decide
    · exact hdigits h c hc

/-! ### The reader -/

theorem unsigned?_eq_some_iff {cs : List Char} {n : UInt64} :
    unsigned? cs = some n ↔ Digits cs n.toNat := by
  rw [unsigned?, digits_iff]
  constructor
  · intro h
    split at h
    · next hcs =>
      dsimp only at h
      split at h
      · next hlt =>
        cases h
        refine ⟨hcs.1, List.all_eq_true.mp hcs.2, ?_⟩
        rw [UInt64.toNat_ofNat_of_lt' hlt]
      · cases h
    · cases h
  · rintro ⟨hne, hdigits, hvalue⟩
    rw [if_pos ⟨hne, List.all_eq_true.mpr hdigits⟩]
    dsimp only
    rw [hvalue, if_pos n.toNat_lt_size, UInt64.ofNat_toNat]

/-- **The reader accepts the numerals of the numbers that 64 bits hold**, each with its number. -/
theorem count?_eq_some_iff {cs : List Char} {n : UInt64} :
    count? cs = some n ↔ Numeral cs n.toNat := by
  have hplus : ¬ ∃ k, Digit '+' k := by
    rw [← isDigit_iff]
    decide
  unfold count?
  split
  · next ds =>
    rw [unsigned?_eq_some_iff]
    constructor
    · exact .plus
    · intro h
      cases h with
      | plus h => exact h
      | plain h => exact absurd (isDigit_iff.mp ((digits_iff.mp h).2.1 '+' (by simp))) hplus
  · next hne =>
    rw [unsigned?_eq_some_iff]
    constructor
    · exact .plain
    · intro h
      cases h with
      | plus h => exact absurd rfl (hne _)
      | plain h => exact h

end Decimal

/-- A text is the word `cs` with blanks around it. -/
def Text.Pads (cs : List Char) (text : String) : Prop :=
  ∃ pre post, text.toList = pre ++ (cs ++ post) ∧
    (∀ c ∈ pre, isBlank c = true) ∧ ∀ c ∈ post, isBlank c = true

/-- A text is a padded word if it is the word once it is trimmed. -/
theorem Text.pads_iff_trimChars_eq {cs : List Char} (hcs : ∀ c ∈ cs, isBlank c = false)
    {text : String} : Pads cs text ↔ trimChars text.toList = cs := by
  constructor
  · rintro ⟨pre, post, htext, hpre, hpost⟩
    rw [htext, trimChars_append_of_blank hpre, trimChars_append_blanks hpost]
    exact trimChars_eq_self (fun c hc => hcs c (List.mem_of_mem_head? hc))
      fun c hc => hcs c (List.mem_of_mem_getLast? hc)
  · rintro rfl
    exact exists_padding text.toList

namespace Settings

/-- A text holds the number `n`: it is a numeral of `n` with blanks around it. -/
def Holds (text : String) (n : Nat) : Prop :=
  ∃ numeral, Text.Pads numeral text ∧ Decimal.Numeral numeral n

/-- **A text is read as the number that it holds, if 64 bits hold that number**, and as no number
otherwise. -/
theorem parse?_eq_some_iff {text : String} {n : UInt64} :
    parse? text = some n ↔ Holds text n.toNat := by
  rw [parse?, Text.toList_trim, Decimal.count?_eq_some_iff]
  constructor
  · intro h
    exact ⟨_, (Text.pads_iff_trimChars_eq h.isBlank_eq_false).mpr rfl, h⟩
  · rintro ⟨numeral, hpads, h⟩
    rwa [(Text.pads_iff_trimChars_eq h.isBlank_eq_false).mp hpads]

theorem parse?_eq_none_iff {text : String} :
    parse? text = none ↔ ∀ n, Holds text n → UInt64.size ≤ n := by
  rw [Option.eq_none_iff_forall_ne_some]
  constructor
  · intro h n hn
    refine Nat.le_of_not_lt fun hlt => ?_
    have hvalue : (UInt64.ofNat n).toNat = n := UInt64.toNat_ofNat_of_lt' hlt
    exact h (.ofNat n) (parse?_eq_some_iff.mpr (hvalue.symm ▸ hn))
  · intro h n hn
    exact absurd (h _ (parse?_eq_some_iff.mp hn)) (Nat.not_le.mpr n.toNat_lt_size)

/-- **The variables that are reported are the ones that are ignored**: they are set, but to a text
that holds no number below `2 ^ 64`. -/
theorem mem_ignored_iff {lookup : String → Option String} {setting : Setting} {text : String} :
    ⟨setting, text⟩ ∈ ignored lookup ↔
      lookup setting.variableName = some text ∧ ∀ n, Holds text n → UInt64.size ≤ n := by
  rw [← parse?_eq_none_iff, ignored, List.mem_filterMap]
  constructor
  · rintro ⟨other, -, h⟩
    split at h
    · cases h
    · next hlookup =>
      split at h
      · cases h
      · next hnone =>
        cases h
        exact ⟨hlookup, by simpa using hnone⟩
  · rintro ⟨hlookup, hnone⟩
    refine ⟨setting, setting.mem_all, ?_⟩
    simp [hlookup, hnone]

/-- The decimal rendering of a count, with blanks around it, holds the count. -/
theorem holds_of_pads_toString {n : UInt64} {text : String}
    (h : Text.Pads (toString n.toNat).toList text) : Holds text n.toNat := by
  have hcount : Decimal.count? (toString n.toNat).toList = some n := by
    rw [Nat.toString_eq_ofList_toDigits, String.toList_ofList]
    exact Decimal.count?_toDigits n
  exact ⟨_, h, Decimal.count?_eq_some_iff.mp hcount⟩

/-- Settings that agree on each setting are the same. -/
theorem ext_get {s s' : Settings} (h : ∀ setting, s.get setting = s'.get setting) : s = s' := by
  rw [← ofValues_get s, ← ofValues_get s', funext h]

/-- **Settings are read exactly, up to the integer limit, and each from its own variable.** A
setting is the number that its variable holds, if the variable is set to a text that holds a number
below `2 ^ 64`. In every other case it has its default: where the variable is not set, where its
text is no numeral, and where the number is `2 ^ 64` or more. No other variable has a say in it. So
settings that are written into their variables, in decimal and with any blanks around them, are
read back. -/
theorem ofLookup_reads_numerals (lookup : String → Option String) :
    (∀ setting text n, lookup setting.variableName = some text → Holds text n → n < UInt64.size →
      ((ofLookup lookup).get setting).toNat = n) ∧
    (∀ setting, (∀ text n, lookup setting.variableName = some text → Holds text n →
        UInt64.size ≤ n) →
      (ofLookup lookup).get setting = setting.default) ∧
    (∀ lookup' : String → Option String, ∀ setting,
      lookup' setting.variableName = lookup setting.variableName →
      (ofLookup lookup').get setting = (ofLookup lookup).get setting) ∧
    ∀ settings : Settings,
      (∀ setting, ∃ text, lookup setting.variableName = some text ∧
        Text.Pads (toString (settings.get setting).toNat).toList text) →
      ofLookup lookup = settings := by
  refine ⟨fun setting text n hset hholds hlt => ?_, fun setting hnone => ?_,
    fun lookup' setting hsame => ?_, fun settings hset => ext_get fun setting => ?_⟩
  · have hvalue : (UInt64.ofNat n).toNat = n := UInt64.toNat_ofNat_of_lt' hlt
    have hparse : parse? text = some (.ofNat n) := parse?_eq_some_iff.mpr (hvalue.symm ▸ hholds)
    rw [get_ofLookup, hset, Option.bind_some, hparse, Option.getD_some, hvalue]
  · rw [get_ofLookup]
    cases hset : lookup setting.variableName with
    | none => rfl
    | some text =>
      rw [Option.bind_some, parse?_eq_none_iff.mpr fun n => hnone text n hset, Option.getD_none]
  · rw [get_ofLookup, get_ofLookup, hsame]
  · obtain ⟨text, hlookup, hpads⟩ := hset setting
    have hparse := parse?_eq_some_iff.mpr (holds_of_pads_toString hpads)
    rw [get_ofLookup, hlookup, Option.bind_some, hparse, Option.getD_some]

/-- The greatest number that is held, with a plus sign, leading zeros and blanks, beside the number
after it, which is not held; and settings that are written out with blanks around them. -/
theorem ofLookup_reads_numerals_at_limit :
    ofLookup (fun name => List.lookup name
        [(Setting.cacheCapacity.variableName, "\u2003+0018446744073709551615\n"),
          (Setting.maxLength.variableName, "18446744073709551616")]) =
      ⟨18446744073709551615, 4096, 64⟩ ∧
    ofLookup (fun name => List.lookup name
        [(Setting.cacheCapacity.variableName, "0"),
          (Setting.maxLength.variableName, "\t18446744073709551615"),
          (Setting.maxNesting.variableName, " 8\u00a0")]) =
      ⟨0, 18446744073709551615, 8⟩ := by
  have hgreatest : Holds "\u2003+0018446744073709551615\n" 18446744073709551615 :=
    parse?_eq_some_iff (n := 18446744073709551615).mp (by decide +kernel)
  have hbeyond : ∀ n, Holds "18446744073709551616" n → UInt64.size ≤ n :=
    parse?_eq_none_iff.mp (by decide +kernel)
  constructor
  · have hread := ofLookup_reads_numerals fun name => List.lookup name
      [(Setting.cacheCapacity.variableName, "\u2003+0018446744073709551615\n"),
        (Setting.maxLength.variableName, "18446744073709551616")]
    refine ext_get fun setting => ?_
    cases setting with
    | cacheCapacity =>
      exact UInt64.toNat_inj.mp (hread.1 .cacheCapacity _ _ rfl hgreatest (by decide))
    | maxLength =>
      refine hread.2.1 .maxLength fun text n hset => ?_
      cases hset
      exact hbeyond n
    | maxNesting =>
      refine hread.2.1 .maxNesting fun text n hset => ?_
      cases hset
  · refine (ofLookup_reads_numerals _).2.2.2 _ fun setting => ?_
    cases setting with
    | cacheCapacity => exact ⟨_, rfl, [], [], by decide +kernel, by simp, by simp⟩
    | maxLength =>
      exact ⟨_, rfl, ['\t'], [], by decide +kernel, List.all_eq_true.mp (by decide), by simp⟩
    | maxNesting =>
      exact ⟨_, rfl, [' '], ['\u00a0'], by decide +kernel, List.all_eq_true.mp (by decide),
        List.all_eq_true.mp (by decide)⟩

end Settings

end AccessRules
