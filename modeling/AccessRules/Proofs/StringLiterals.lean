import AccessRules.Json.Read.Typed
import AccessRules.Json.Render
import AccessRules.Proofs.Numerals

/-!
# JSON strings denote texts

A JSON string may write a character in several ways: as itself, by a short escape, by the
hexadecimal number of its code unit, or by the numbers of a surrogate pair. The built-in reader
accepts exactly these ways and finds the text that they denote, and the built-in writer chooses one
of them for each character.

## Main definitions

* `Json.HexDigit`, `Json.HexUnit`: hexadecimal digits, and four of them
* `Json.Escape`: what may follow a backslash, with the character that it denotes
* `Json.Spells`: the ways to write a character in a string
* `Json.Denotes`: the inside of a string, with the text that it denotes
* `Json.Literal`: a string with its quotes

## Main statements

* `Json.readString_eq_ok_iff`: the reader accepts exactly the strings, each with its text
* `Json.denotes_flatMap`: what is written character by character denotes the text
* `Json.textOfDocument_eq_ok_iff`: the documents of a text

## Implementation notes

`Escape.pair` goes from the character to the numbers of its two halves, so it states the encoding.
The reader goes the other way, and the two meet in the arithmetic of `readLowSurrogate_eq_ok_iff`.
Characters are Unicode scalar values, so no escape of a single code unit denotes half a pair, and
the grammar does not have to say so.
-/

namespace AccessRules

namespace Json

open Fault (before)

/-! ### The grammar of strings -/

/-- `HexDigit c k`: `c` is a hexadecimal digit of the number `k`. Letters may be of either case. -/
inductive HexDigit : Char → Nat → Prop where
  | digit {c : Char} {k : Nat} (h : Decimal.Digit c k) : HexDigit c k
  | lower {c : Char} {k : Nat} (hk : k < 6) (hc : c.toNat = 'a'.toNat + k) : HexDigit c (10 + k)
  | upper {c : Char} {k : Nat} (hk : k < 6) (hc : c.toNat = 'A'.toNat + k) : HexDigit c (10 + k)

/-- `HexUnit ds n`: `ds` are four hexadecimal digits that write `n`. -/
inductive HexUnit : List Char → Nat → Prop where
  | mk {c₃ c₂ c₁ c₀ : Char} {k₃ k₂ k₁ k₀ : Nat} (h₃ : HexDigit c₃ k₃) (h₂ : HexDigit c₂ k₂)
      (h₁ : HexDigit c₁ k₁) (h₀ : HexDigit c₀ k₀) :
      HexUnit [c₃, c₂, c₁, c₀] (4096 * k₃ + 256 * k₂ + 16 * k₁ + k₀)

/-- The letters of the short escapes, each with the character that it denotes. -/
def shortForms : List (Char × Char) :=
  [('"', '"'), ('\\', '\\'), ('/', '/'), ('b', '\x08'), ('f', '\x0c'), ('n', '\n'), ('r', '\r'),
    ('t', '\t')]

/-- `Escape c cs`: behind a backslash, `cs` denotes the character `c`. -/
inductive Escape : Char → List Char → Prop where
  /-- A letter of the table. -/
  | short {letter c : Char} (h : (letter, c) ∈ shortForms) : Escape c [letter]
  /-- The number of the character, if four digits can write it. -/
  | unit {c : Char} {ds : List Char} (h : HexUnit ds c.toNat) : Escape c ('u' :: ds)
  /-- The two halves of its surrogate pair, if the number takes more than four digits. -/
  | pair {c : Char} {hs ls : List Char} (hc : 0x10000 ≤ c.toNat)
      (hhigh : HexUnit hs (0xD800 + (c.toNat - 0x10000) / 0x400))
      (hlow : HexUnit ls (0xDC00 + (c.toNat - 0x10000) % 0x400)) :
      Escape c ('u' :: (hs ++ '\\' :: 'u' :: ls))

/-- Whether a character may stand for itself in a string. -/
def isPlain (c : Char) : Bool :=
  c != '"' && c != '\\' && !isControl c

/-- `Spells c cs`: in a string, `cs` denotes the character `c`. -/
inductive Spells (c : Char) : List Char → Prop where
  | plain (hc : isPlain c = true) : Spells c [c]
  | escape {ws : List Char} (hc : Escape c ws) : Spells c ('\\' :: ws)

/-- `Denotes body cs`: between quotes, `body` denotes the text `cs`. -/
inductive Denotes : List Char → List Char → Prop where
  | nil : Denotes [] []
  /-- A character that stands for itself. -/
  | plain {c : Char} {body cs : List Char} (hc : isPlain c = true) (h : Denotes body cs) :
      Denotes (c :: body) (c :: cs)
  /-- An escape. -/
  | escape {c : Char} {ws body cs : List Char} (hc : Escape c ws) (h : Denotes body cs) :
      Denotes ('\\' :: (ws ++ body)) (c :: cs)

/-- `Literal text cs`: `text` is a string, with its quotes, that denotes the text `cs`. -/
inductive Literal : List Char → List Char → Prop where
  | mk {body cs : List Char} (h : Denotes body cs) : Literal ('"' :: (body ++ ['"'])) cs

/-! ### Hexadecimal numbers -/

theorem hexValue?_eq_some_iff {c : Char} {k : Nat} : hexValue? c = some k ↔ HexDigit c k := by
  have hlower : ('a' ≤ c ∧ c ≤ 'f') ↔ 97 ≤ c.toNat ∧ c.toNat ≤ 102 := Iff.rfl
  have hupper : ('A' ≤ c ∧ c ≤ 'F') ↔ 65 ≤ c.toNat ∧ c.toNat ≤ 70 := Iff.rfl
  have hzero : '0'.toNat = 48 := rfl
  have ha : 'a'.toNat = 97 := rfl
  have hA : 'A'.toNat = 65 := rfl
  rw [hexValue?]
  constructor
  · intro h
    split at h
    · next hc =>
      rw [Decimal.isDigit_iff_toNat] at hc
      cases h
      exact .digit ⟨by omega, by omega⟩
    · split at h
      · next hc =>
        rw [hlower] at hc
        cases h
        rw [Nat.add_comm]
        exact .lower (by omega) (by omega)
      · split at h
        · next hc =>
          rw [hupper] at hc
          cases h
          rw [Nat.add_comm]
          exact .upper (by omega) (by omega)
        · cases h
  · intro h
    cases h with
    | digit h =>
      rw [if_pos (Decimal.isDigit_iff.mpr ⟨k, h⟩), ← h.eq_sub]
    | @lower k hk hc =>
      rw [if_neg (by rw [Decimal.isDigit_iff_toNat]; omega), if_pos (hlower.mpr (by omega)), hc]
      congr 1
      omega
    | @upper k hk hc =>
      rw [if_neg (by rw [Decimal.isDigit_iff_toNat]; omega),
        if_neg (by rw [hlower]; omega), if_pos (hupper.mpr (by omega)), hc]
      congr 1
      omega

theorem HexDigit.lt {c : Char} {k : Nat} (h : HexDigit c k) : k < 16 := by
  cases h with
  | digit h => exact Nat.lt_trans h.1 (by decide)
  | lower hk _ | upper hk _ => omega

theorem HexUnit.lt {ds : List Char} {n : Nat} (h : HexUnit ds n) : n < 0x10000 := by
  cases h with
  | mk h₃ h₂ h₁ h₀ =>
    have := h₃.lt
    have := h₂.lt
    have := h₁.lt
    have := h₀.lt
    omega

/-- The digits that the writer uses are digits. -/
theorem hexDigit_hexDigit (n : Nat) : HexDigit (hexDigit n) (n % 16) := by
  have hall : ∀ k < 16, hexValue? (Nat.digitChar k) = some k := by decide
  exact hexValue?_eq_some_iff.mp (hall (n % 16) (Nat.mod_lt n (by decide)))

theorem readHex_eq_ok_iff {cs rest : List Char} {n : Nat} :
    readHex cs = .ok (n, rest) ↔ ∃ ds, HexUnit ds n ∧ cs = ds ++ rest := by
  constructor
  · intro h
    unfold readHex at h
    split at h
    · split at h
      · next k₃ k₂ k₁ k₀ h₃ h₂ h₁ h₀ =>
        have hvalue : ((k₃ * 16 + k₂) * 16 + k₁) * 16 + k₀ =
            4096 * k₃ + 256 * k₂ + 16 * k₁ + k₀ := by omega
        cases h
        rw [hvalue]
        exact ⟨_, .mk (hexValue?_eq_some_iff.mp h₃) (hexValue?_eq_some_iff.mp h₂)
          (hexValue?_eq_some_iff.mp h₁) (hexValue?_eq_some_iff.mp h₀), rfl⟩
      · cases h
    · cases h
  · rintro ⟨ds, h, rfl⟩
    cases h with
    | mk h₃ h₂ h₁ h₀ =>
      simp only [List.cons_append, List.nil_append, readHex, hexValue?_eq_some_iff.mpr h₃,
        hexValue?_eq_some_iff.mpr h₂, hexValue?_eq_some_iff.mpr h₁, hexValue?_eq_some_iff.mpr h₀]
      congr 2
      omega

theorem hexUnit_of_readHex_eq {ds : List Char} {n : Nat} (h : readHex ds = .ok (n, [])) :
    HexUnit ds n := by
  obtain ⟨ds', h', rfl⟩ := readHex_eq_ok_iff.mp h
  rwa [List.append_nil]

/-! ### Escapes -/

theorem shortEscape?_eq_some_iff {letter c : Char} :
    shortEscape? letter = some c ↔ (letter, c) ∈ shortForms := by
  constructor
  · intro h
    unfold shortEscape? at h
    split at h <;> cases h <;> decide
  · intro h
    simp only [shortForms, List.mem_cons, List.not_mem_nil, or_false, Prod.mk.injEq] at h
    rcases h with ⟨rfl, rfl⟩ | ⟨rfl, rfl⟩ | ⟨rfl, rfl⟩ | ⟨rfl, rfl⟩ | ⟨rfl, rfl⟩ | ⟨rfl, rfl⟩ |
      ⟨rfl, rfl⟩ | ⟨rfl, rfl⟩ <;> rfl

/-- The number of a character is no half of a surrogate pair. -/
theorem isSurrogate_toNat (c : Char) :
    isHighSurrogate c.toNat = false ∧ isLowSurrogate c.toNat = false := by
  have hvalid : c.toNat < 0xD800 ∨ 0xDFFF < c.toNat ∧ c.toNat < 0x110000 := c.valid
  simp [isHighSurrogate, isLowSurrogate]
  omega

theorem toNat_ofNat_of_isValidChar {n : Nat} (h : n.isValidChar) : (Char.ofNat n).toNat = n := by
  rw [Char.ofNat, dif_pos h]
  rfl

theorem skipInPair_eq_ok_iff {c : Char} {cs rest : List Char} :
    skipInPair c cs = .ok rest ↔ cs = c :: rest := by
  cases cs with
  | nil => simp [skipInPair]
  | cons d cs =>
    rw [skipInPair]
    by_cases hd : d = c
    · simp [hd]
    · simp [hd]

/-- The halves of a surrogate pair are those of the character that it denotes. -/
theorem ofSurrogates_eq_iff {c : Char} {high low : Nat} (hhigh : isHighSurrogate high = true)
    (hlow : isLowSurrogate low = true) :
    ofSurrogates high low = c ↔ 0x10000 ≤ c.toNat ∧
      high = 0xD800 + (c.toNat - 0x10000) / 0x400 ∧ low = 0xDC00 + (c.toNat - 0x10000) % 0x400 := by
  have hvalid : c.toNat < 0xD800 ∨ 0xDFFF < c.toNat ∧ c.toNat < 0x110000 := c.valid
  simp only [isHighSurrogate, isLowSurrogate, Bool.and_eq_true, decide_eq_true_eq] at hhigh hlow
  have htoNat : (ofSurrogates high low).toNat =
      0x10000 + (high - 0xD800) * 0x400 + (low - 0xDC00) :=
    toNat_ofNat_of_isValidChar (.inr (by omega))
  rw [← Char.toNat_inj, htoNat]
  omega

theorem readLowSurrogate_eq_ok_iff {high : Nat} {c : Char} {cs rest : List Char}
    (hhigh : isHighSurrogate high = true) :
    readLowSurrogate high cs = .ok (c, rest) ↔
      0x10000 ≤ c.toNat ∧ high = 0xD800 + (c.toNat - 0x10000) / 0x400 ∧
      ∃ ls, HexUnit ls (0xDC00 + (c.toNat - 0x10000) % 0x400) ∧
        cs = '\\' :: 'u' :: (ls ++ rest) := by
  constructor
  · intro h
    simp only [readLowSurrogate, bind_eq_ok, skipInPair_eq_ok_iff] at h
    obtain ⟨_, rfl, _, rfl, ⟨low, after⟩, hread, h⟩ := h
    split at h
    · next hlow =>
      obtain ⟨ls, hls, rfl⟩ := readHex_eq_ok_iff.mp hread
      simp only [Except.ok.injEq, Prod.mk.injEq] at h
      obtain ⟨hchar, rfl⟩ := h
      obtain ⟨hc, hhigh', hlow'⟩ := (ofSurrogates_eq_iff hhigh hlow).mp hchar
      exact ⟨hc, hhigh', ls, hlow' ▸ hls, rfl⟩
    · cases h
  · rintro ⟨hc, hhigh', ls, hls, rfl⟩
    have hlow : isLowSurrogate (0xDC00 + (c.toNat - 0x10000) % 0x400) = true := by
      simp [isLowSurrogate]
      omega
    simp only [readLowSurrogate, bind_eq_ok, skipInPair_eq_ok_iff]
    refine ⟨_, rfl, _, rfl, _, readHex_eq_ok_iff.mpr ⟨ls, hls, rfl⟩, ?_⟩
    rw [if_pos hlow, (ofSurrogates_eq_iff hhigh hlow).mpr ⟨hc, hhigh', rfl⟩]

/-- No number is that of both halves. -/
theorem isLowSurrogate_eq_false {n : Nat} (h : isHighSurrogate n = true) :
    isLowSurrogate n = false := by
  simp [isHighSurrogate, isLowSurrogate] at *
  omega

/-- The number of the first half of a surrogate pair is the number of a first half. -/
theorem isHighSurrogate_half (c : Char) :
    isHighSurrogate (0xD800 + (c.toNat - 0x10000) / 0x400) = true := by
  have hvalid : c.toNat < 0xD800 ∨ 0xDFFF < c.toNat ∧ c.toNat < 0x110000 := c.valid
  simp [isHighSurrogate]
  omega

theorem readEscape_unit {n : Nat} {ds : List Char} (h : HexUnit ds n) (rest : List Char) :
    readEscape ('u' :: (ds ++ rest)) =
      if isLowSurrogate n then .error (before .loneSurrogate rest)
      else if isHighSurrogate n then readLowSurrogate n rest
      else .ok (.ofNat n, rest) := by
  have hu : shortEscape? 'u' = none := rfl
  have hread : readHex (ds ++ rest) = .ok (n, rest) := readHex_eq_ok_iff.mpr ⟨ds, h, rfl⟩
  simp only [readEscape, hu, if_true, readCodePoint, hread]
  rfl

/-- An escape is read as the character that it denotes. -/
theorem Escape.readEscape_eq {c : Char} {ws : List Char} (h : Escape c ws) (rest : List Char) :
    readEscape (ws ++ rest) = .ok (c, rest) := by
  cases h with
  | short h => simp only [List.singleton_append, readEscape, shortEscape?_eq_some_iff.mpr h]
  | unit h =>
    obtain ⟨hhigh, hlow⟩ := isSurrogate_toNat c
    rw [List.cons_append, readEscape_unit h, if_neg (by simp [hlow]), if_neg (by simp [hhigh]),
      Char.ofNat_toNat]
  | @pair _ hs ls hc hhs hls =>
    have hhigh := isHighSurrogate_half c
    have hpair : readLowSurrogate _ ('\\' :: 'u' :: (ls ++ rest)) = .ok (c, rest) :=
      (readLowSurrogate_eq_ok_iff hhigh).mpr ⟨hc, rfl, ls, hls, rfl⟩
    rw [List.cons_append, List.append_assoc, readEscape_unit hhs,
      if_neg (by simp [isLowSurrogate_eq_false hhigh]), if_pos hhigh]
    exact hpair

/-- **The reader accepts exactly the escapes**, each with the character that it denotes. -/
theorem readEscape_eq_ok_iff {c : Char} {cs rest : List Char} :
    readEscape cs = .ok (c, rest) ↔ ∃ ws, Escape c ws ∧ cs = ws ++ rest := by
  constructor
  · intro h
    unfold readEscape at h
    split at h
    · cases h
    · next letter cs =>
      split at h
      · next hshort =>
        cases h
        exact ⟨[letter], .short (shortEscape?_eq_some_iff.mp hshort), rfl⟩
      · split at h
        · next hu =>
          subst hu
          obtain ⟨⟨n, after⟩, hread, hcode⟩ := bind_eq_ok.mp h
          obtain ⟨ds, hds, rfl⟩ := readHex_eq_ok_iff.mp hread
          dsimp only at hcode
          split at hcode
          · cases hcode
          · next hlow =>
            split at hcode
            · next hhigh =>
              obtain ⟨hc, rfl, ls, hls, rfl⟩ := (readLowSurrogate_eq_ok_iff hhigh).mp hcode
              exact ⟨_, .pair hc hds hls, by simp⟩
            · next hhigh =>
              have hlt := hds.lt
              have hn : (Char.ofNat n).toNat = n := by
                simp [isLowSurrogate, isHighSurrogate] at hlow hhigh
                exact toNat_ofNat_of_isValidChar (by rw [Nat.isValidChar]; omega)
              cases hcode
              exact ⟨'u' :: ds, .unit (hn.symm ▸ hds), rfl⟩
        · cases h
  · rintro ⟨ws, h, rfl⟩
    exact h.readEscape_eq rest

/-! ### Strings -/

theorem readString_quote (cs : List Char) : readString ('"' :: cs) = .ok ([], cs) := by
  simp [readString]

theorem readString_backslash {c : Char} {cs rest : List Char} (h : readEscape cs = .ok (c, rest)) :
    readString ('\\' :: cs) = (fun p => (c :: p.1, p.2)) <$> readString rest := by
  rw [readString, if_neg (by decide), if_pos rfl]
  split
  · next heq => cases h.symm.trans heq
  · next heq =>
    cases h.symm.trans heq
    cases readString rest <;> rfl

theorem readString_plain {c : Char} (hc : isPlain c = true) (cs : List Char) :
    readString (c :: cs) = (fun p => (c :: p.1, p.2)) <$> readString cs := by
  simp only [isPlain, Bool.and_eq_true, bne_iff_ne, ne_eq, Bool.not_eq_true'] at hc
  obtain ⟨⟨hquote, hbackslash⟩, hcontrol⟩ := hc
  rw [readString, if_neg hquote, if_neg hbackslash, hcontrol]
  cases readString cs <;> rfl

/-- The inside of a string is read as the text that it denotes. -/
theorem Denotes.readString_eq {body name : List Char} (h : Denotes body name) (rest : List Char) :
    readString (body ++ '"' :: rest) = .ok (name, rest) := by
  induction h with
  | nil => exact readString_quote rest
  | plain hc _ ih =>
    rw [List.cons_append, readString_plain hc, ih]
    rfl
  | escape hc _ ih =>
    rw [List.cons_append, List.append_assoc, readString_backslash (hc.readEscape_eq _), ih]
    rfl

/-- **The reader accepts exactly the strings**, each with the text that it denotes. -/
theorem readString_eq_ok_iff {cs name rest : List Char} :
    readString cs = .ok (name, rest) ↔
      ∃ body, Denotes body name ∧ cs = body ++ '"' :: rest := by
  constructor
  · intro h
    fun_induction readString cs generalizing name with
    | case1 => cases h
    | case2 cs =>
      cases h
      exact ⟨[], .nil, rfl⟩
    | case3 => cases h
    | case4 => cases h
    | case5 cs c after hescape _ ds last hread _ ih =>
      cases h
      obtain ⟨ws, hws, rfl⟩ := readEscape_eq_ok_iff.mp hescape
      obtain ⟨body, hbody, rfl⟩ := ih hread
      exact ⟨_, .escape hws hbody, by simp⟩
    | case6 => cases h
    | case7 => cases h
    | case8 c cs hquote hbackslash hcontrol ds last hread ih =>
      cases h
      obtain ⟨body, hbody, rfl⟩ := ih hread
      exact ⟨_, .plain (by simp [isPlain, hquote, hbackslash, hcontrol]) hbody, rfl⟩
  · rintro ⟨body, h, rfl⟩
    exact h.readString_eq rest

/-! ### What is written -/

/-- A character is written as itself or as an escape that denotes it. -/
theorem spells_escapeChar (c : Char) : Spells c (escapeChar c) := by
  unfold escapeChar
  split
  case h_8 hquote hbackslash _ _ _ _ _ =>
    split
    · next hcontrol =>
      have hvalue : 4096 * 0 + 256 * 0 + 16 * (c.toNat / 16 % 16) + c.toNat % 16 = c.toNat := by
        omega
      have hzero : HexDigit '0' 0 := .digit ⟨by decide, rfl⟩
      have hunit := HexUnit.mk hzero hzero (hexDigit_hexDigit (c.toNat / 16))
        (hexDigit_hexDigit c.toNat)
      rw [hvalue] at hunit
      exact .escape (.unit hunit)
    · next hcontrol =>
      have hplain : isPlain c = true := by
        have hne : c ≠ '"' ∧ c ≠ '\\' := ⟨hquote, hbackslash⟩
        simp [isPlain, isControl, hne, Nat.le_of_not_lt hcontrol]
      exact .plain hplain
  all_goals exact .escape (.short (by decide))

/-- What spells a character denotes it, in front of any string. -/
theorem Spells.denotes_append {c : Char} {piece body cs : List Char} (h : Spells c piece)
    (hbody : Denotes body cs) : Denotes (piece ++ body) (c :: cs) := by
  cases h with
  | plain hc => exact .plain hc hbody
  | escape hc => exact .escape hc hbody

/-- **Characters that are spelled one behind the other denote their text**, however each is
spelled. -/
theorem denotes_flatMap {spelling : Char → List Char} (h : ∀ c, Spells c (spelling c))
    (cs : List Char) : Denotes (cs.flatMap spelling) cs := by
  induction cs with
  | nil => exact .nil
  | cons c cs ih =>
    rw [List.flatMap_cons]
    exact (h c).denotes_append ih

theorem literal_encodeChars (cs : List Char) : Literal (encodeChars cs) cs :=
  .mk (denotes_flatMap spells_escapeChar cs)

/-! ### Documents -/

/-- Characters that may stand between the tokens of a JSON text. -/
def Blanks (cs : List Char) : Prop :=
  ∀ c ∈ cs, isBlank c = true

theorem blanks_nil : Blanks [] := by
  simp [Blanks]

theorem skipBlanks_append {b : List Char} (hb : Blanks b) (cs : List Char) :
    skipBlanks (b ++ cs) = skipBlanks cs :=
  List.dropWhile_append_of_pos hb

theorem skipBlanks_cons {c : Char} (hc : isBlank c = false) (cs : List Char) :
    skipBlanks (c :: cs) = c :: cs := by
  rw [skipBlanks, List.dropWhile_cons_of_neg]
  simp [hc]

theorem skipBlanks_eq_nil_iff {cs : List Char} : skipBlanks cs = [] ↔ Blanks cs :=
  List.dropWhile_eq_nil_iff

/-- What is passed over are blanks. -/
theorem exists_eq_append_skipBlanks (cs : List Char) :
    ∃ b, Blanks b ∧ cs = b ++ skipBlanks cs :=
  ⟨cs.takeWhile isBlank, fun _ hc => List.mem_takeWhile_imp hc,
    List.takeWhile_append_dropWhile.symm⟩

theorem readText_eq_ok_iff {expected name : String} {cs rest : List Char} :
    readText expected cs = .ok (name, rest) ↔
      ∃ b text, Blanks b ∧ Literal text name.toList ∧ cs = b ++ (text ++ rest) := by
  constructor
  · intro h
    obtain ⟨b, hb, hcs⟩ := exists_eq_append_skipBlanks cs
    rw [readText] at h
    split at h
    · cases h
    · next c after hskip =>
      rw [hskip] at hcs
      split at h
      · next hquote =>
        subst hquote
        obtain ⟨⟨found, last⟩, hread, h⟩ := bind_eq_ok.mp h
        cases h
        obtain ⟨body, hbody, rfl⟩ := readString_eq_ok_iff.mp hread
        refine ⟨b, _, hb, .mk ?_, by simpa using hcs⟩
        rwa [String.toList_ofList]
      · cases h
  · rintro ⟨b, text, hb, h, rfl⟩
    cases h with
    | mk h =>
      rw [readText, skipBlanks_append hb, List.cons_append, skipBlanks_cons rfl, List.append_assoc,
        List.singleton_append]
      simp [h.readString_eq, bind, Except.bind, pure, Except.pure]

theorem readDocument_eq_ok_iff {α : Type} {read : List Char → Except Fault (α × List Char)}
    {text : String} {a : α} :
    readDocument read text = .ok a ↔ ∃ b, Blanks b ∧ read text.toList = .ok (a, b) := by
  rw [readDocument, bind_eq_ok]
  constructor
  · rintro ⟨⟨found, rest⟩, hread, h⟩
    dsimp only at h
    split at h
    · next hrest =>
      cases h
      exact ⟨rest, skipBlanks_eq_nil_iff.mp hrest, hread⟩
    · cases h
  · rintro ⟨b, hb, hread⟩
    refine ⟨_, hread, ?_⟩
    dsimp only
    rw [skipBlanks_eq_nil_iff.mpr hb]
    rfl

/-- **The documents of a text are the strings that denote it**, with blanks around them. -/
theorem textOfDocument_eq_ok_iff {text name : String} :
    textOfDocument text = .ok name ↔ ∃ b cs b', Blanks b ∧ Literal cs name.toList ∧ Blanks b' ∧
      text.toList = b ++ (cs ++ b') := by
  rw [textOfDocument, readDocument_eq_ok_iff]
  constructor
  · rintro ⟨b', hb', hread⟩
    obtain ⟨b, cs, hb, hcs, htext⟩ := readText_eq_ok_iff.mp hread
    exact ⟨b, cs, b', hb, hcs, hb', htext⟩
  · rintro ⟨b, cs, b', hb, hcs, hb', htext⟩
    exact ⟨b', hb', readText_eq_ok_iff.mpr ⟨b, cs, hb, hcs, htext⟩⟩

end Json

end AccessRules
