import AccessRules.Proofs.Grammar
import AccessRules.Token.Scan
import Mathlib.Data.List.TakeWhile

/-!
# Scanning piece by piece

A text is scanned from left to right, and where two pieces of it meet the scan sees nothing but
one boundary: a word that ends the first piece would swallow word characters that begin the
second. Away from that the tokens of a text are the tokens of its pieces.

## Main definitions

* `Token.IsName`: the texts that words other than the truth values have

## Main statements

* `scanFrom_append`: the tokens of two adjoining texts
* `isName_of_mem_scanFrom`: every scanned pattern is a name

## Implementation notes

`scanFrom_append` asks that the first piece be scanned to its end, that is, without an
unrecognized token. That is also what keeps a lone operator character at the end of the first
piece from pairing up with the second.
-/

namespace AccessRules.Token

open Text

/-- Blanks are no word characters. -/
theorem isWordChar_of_isBlank {c : Char} (h : isBlank c = true) : isWordChar c = false := by
  rw [← Bool.not_eq_true]
  intro hc
  rw [isBlank_of_isWordChar hc] at h
  exact Bool.noConfusion h

/-! ### The front of a text -/

theorem scanFrom_blank {c : Char} (h : isBlank c = true) (position : Nat) (cs : List Char) :
    scanFrom position (c :: cs) = scanFrom (position + c.utf8Size) cs := by
  rw [scanFrom, if_pos h]

theorem scanFrom_opening (position : Nat) (cs : List Char) :
    scanFrom position ('(' :: cs) = ⟨.opening, position⟩ :: scanFrom (position + 1) cs := by
  rw [scanFrom, if_neg (by decide), if_pos rfl]

theorem scanFrom_closing (position : Nat) (cs : List Char) :
    scanFrom position (')' :: cs) = ⟨.closing, position⟩ :: scanFrom (position + 1) cs := by
  rw [scanFrom, if_neg (by decide), if_neg (by decide), if_pos rfl]

theorem scanFrom_wordChar {c : Char} (h : isWordChar c = true) (position : Nat)
    (cs : List Char) :
    scanFrom position (c :: cs) =
      ⟨Kind.ofWord (c :: cs.takeWhile isWordChar), position⟩ ::
        scanFrom (position + extent (c :: cs.takeWhile isWordChar)) (cs.dropWhile isWordChar) := by
  have hopening : c ≠ '(' := by
    rintro rfl
    exact absurd h (by decide)
  have hclosing : c ≠ ')' := by
    rintro rfl
    exact absurd h (by decide)
  rw [scanFrom, if_neg (by simp [isBlank_of_isWordChar h]), if_neg hopening, if_neg hclosing,
    if_pos h]

/-- An operator is a pair of the same operator character. -/
theorem operatorAt_eq_some {c : Char} {cs : List Char} {operator : Kind}
    (h : operatorAt c cs = some operator) :
    (c = '|' ∧ operator = .or ∨ c = '&' ∧ operator = .and) ∧ ∃ ds, cs = c :: ds := by
  rw [operatorAt] at h
  split at h
  · next hhead =>
    refine ⟨?_, List.head?_eq_some_iff.mp hhead⟩
    split at h
    · next hc => exact .inl ⟨hc, (Option.some.inj h).symm⟩
    · split at h
      · next hc => exact .inr ⟨hc, (Option.some.inj h).symm⟩
      · simp at h
  · simp at h

theorem scanFrom_operator {c : Char} {cs : List Char} {operator : Kind}
    (h : operatorAt c cs = some operator) (position : Nat) :
    scanFrom position (c :: cs) = ⟨operator, position⟩ :: scanFrom (position + 2) cs.tail := by
  obtain ⟨⟨rfl, -⟩ | ⟨rfl, -⟩, -⟩ := operatorAt_eq_some h <;>
  · rw [scanFrom, if_neg (by decide), if_neg (by decide), if_neg (by decide), if_neg (by decide)]
    simp only [h]

/-- A word ends where no word character follows. -/
theorem scanFrom_word_append {word : List Char} (hne : word ≠ [])
    (hword : ∀ c ∈ word, isWordChar c = true) {rest : List Char}
    (hrest : ∀ c ∈ rest.head?, isWordChar c = false) (position : Nat) :
    scanFrom position (word ++ rest) =
      ⟨Kind.ofWord word, position⟩ :: scanFrom (position + extent word) rest := by
  obtain ⟨c, cs, rfl⟩ := List.exists_cons_of_ne_nil hne
  have hcs : ∀ d ∈ cs, isWordChar d = true := fun d hd => hword d (List.mem_cons_of_mem c hd)
  have hstop : rest.takeWhile isWordChar = [] ∧ rest.dropWhile isWordChar = rest := by
    cases rest with
    | nil => exact ⟨rfl, rfl⟩
    | cons d rest => simp [hrest d rfl]
  rw [List.cons_append, scanFrom_wordChar (hword c List.mem_cons_self),
    List.takeWhile_append_of_pos hcs, List.dropWhile_append_of_pos hcs, hstop.1, hstop.2,
    List.append_nil]

/-- A text of word characters is one word. -/
theorem scanFrom_word {word : List Char} (hne : word ≠ [])
    (h : ∀ c ∈ word, isWordChar c = true) (position : Nat) :
    scanFrom position word = [⟨Kind.ofWord word, position⟩] := by
  have hscan : scanFrom position (word ++ []) = _ := scanFrom_word_append hne h (by simp) position
  rwa [List.append_nil, scanFrom_nil] at hscan

/-- Blanks at the front are skipped. -/
theorem scanFrom_append_of_blank {pre : List Char} (h : ∀ c ∈ pre, isBlank c = true)
    (position : Nat) (cs : List Char) :
    scanFrom position (pre ++ cs) = scanFrom (position + extent pre) cs := by
  induction pre generalizing position with
  | nil => rfl
  | cons c pre ih =>
    rw [List.cons_append, scanFrom_blank (h c List.mem_cons_self),
      ih fun d hd => h d (List.mem_cons_of_mem c hd), extent_cons, Nat.add_assoc]

/-- Blanks alone have no tokens. -/
theorem scanFrom_of_blank {cs : List Char} (h : ∀ c ∈ cs, isBlank c = true) (position : Nat) :
    scanFrom position cs = [] := by
  rw [← List.append_nil cs, scanFrom_append_of_blank h, scanFrom_nil]

/-! ### Adjoining texts -/

/-- A word that begins in the first of two adjoining texts ends in it. -/
private theorem word_append {c : Char} (hc : isWordChar c = true) {cs ys : List Char}
    (hboundary : ∀ x ∈ (c :: cs).getLast?, ∀ y ∈ ys.head?,
      isWordChar x = true → isWordChar y = false) :
    (cs ++ ys).takeWhile isWordChar = cs.takeWhile isWordChar ∧
      (cs ++ ys).dropWhile isWordChar = cs.dropWhile isWordChar ++ ys := by
  by_cases hall : ∀ d ∈ cs, isWordChar d = true
  · have hlast : isWordChar ((c :: cs).getLast (List.cons_ne_nil c cs)) = true := by
      rcases List.mem_cons.mp (List.getLast_mem (List.cons_ne_nil c cs)) with h | h
      · rw [h]
        exact hc
      · exact hall _ h
    have hys : ∀ y ∈ ys.head?, isWordChar y = false := fun y hy =>
      hboundary _ (List.getLast?_eq_some_getLast (List.cons_ne_nil c cs)) y hy hlast
    rw [List.takeWhile_append_of_pos hall, List.dropWhile_append_of_pos hall,
      List.takeWhile_eq_self_iff.mpr hall, List.dropWhile_eq_nil_iff.mpr hall]
    cases ys with
    | nil => simp
    | cons y ys => simp [hys y (by simp)]
  · have htake : (cs.takeWhile isWordChar).length ≠ cs.length := fun h =>
      hall (List.takeWhile_eq_self_iff.mp ((List.takeWhile_prefix isWordChar).eq_of_length h))
    have hdrop : (cs.dropWhile isWordChar).isEmpty ≠ true := fun h =>
      hall (List.dropWhile_eq_nil_iff.mp (List.isEmpty_iff.mp h))
    rw [List.takeWhile_append, if_neg htake, List.dropWhile_append, if_neg hdrop]
    exact ⟨rfl, rfl⟩

/-- The last character of a text is that of what is left of it, if anything is left. -/
private theorem mem_getLast?_of_suffix {xs zs : List Char} (h : zs <:+ xs) {x : Char}
    (hx : x ∈ zs.getLast?) : x ∈ xs.getLast? := by
  obtain ⟨pre, rfl⟩ := h
  rw [List.getLast?_append, Option.mem_def.mp hx]
  rfl

/-- **The tokens of two adjoining texts.** The first text is scanned to its end, and no word
reaches across the boundary. -/
theorem scanFrom_append {position : Nat} {xs : List Char}
    (h : Recognized (scanFrom position xs)) {ys : List Char}
    (hboundary : ∀ x ∈ xs.getLast?, ∀ y ∈ ys.head?, isWordChar x = true → isWordChar y = false) :
    scanFrom position (xs ++ ys) =
      scanFrom position xs ++ scanFrom (position + extent xs) ys := by
  fun_induction scanFrom position xs with
  | case1 position => rfl
  | case2 position c cs hblank ih =>
    rw [List.cons_append, scanFrom_blank hblank,
      ih h fun x hx => hboundary x (mem_getLast?_of_suffix (List.suffix_cons c cs) hx),
      extent_cons, Nat.add_assoc]
  | case3 position cs hblank ih =>
    rw [List.cons_append, scanFrom_opening, List.cons_append,
      ih (recognized_cons.mp h).2
        fun x hx => hboundary x (mem_getLast?_of_suffix (List.suffix_cons _ cs) hx),
      extent_cons, Nat.add_assoc]
    rfl
  | case4 position cs hblank hopening ih =>
    rw [List.cons_append, scanFrom_closing, List.cons_append,
      ih (recognized_cons.mp h).2
        fun x hx => hboundary x (mem_getLast?_of_suffix (List.suffix_cons _ cs) hx),
      extent_cons, Nat.add_assoc]
    rfl
  | case5 position c cs hblank hopening hclosing hword word ih =>
    obtain ⟨htake, hdrop⟩ := word_append hword hboundary
    have hsuffix : cs.dropWhile isWordChar <:+ c :: cs :=
      (List.dropWhile_suffix isWordChar).trans (List.suffix_cons c cs)
    have hextent : extent word + extent (cs.dropWhile isWordChar) = extent (c :: cs) := by
      rw [← extent_append, List.cons_append, List.takeWhile_append_dropWhile]
    rw [List.cons_append, scanFrom_wordChar hword, htake, hdrop, List.cons_append,
      ih (recognized_cons.mp h).2 fun x hx => hboundary x (mem_getLast?_of_suffix hsuffix hx),
      ← hextent, Nat.add_assoc]
  | case6 position c cs hblank hopening hclosing hword operator hoperator ih =>
    obtain ⟨hc, ds, rfl⟩ := operatorAt_eq_some hoperator
    have hpair : operatorAt c (c :: (ds ++ ys)) = some operator := hoperator
    have hsize : c.utf8Size = 1 := by
      rcases hc with ⟨rfl, -⟩ | ⟨rfl, -⟩ <;> rfl
    have hsuffix : ds <:+ c :: c :: ds := ⟨[c, c], rfl⟩
    rw [List.tail_cons] at ih h ⊢
    rw [List.cons_append, List.cons_append, scanFrom_operator hpair, List.tail_cons,
      List.cons_append,
      ih (recognized_cons.mp h).2 fun x hx => hboundary x (mem_getLast?_of_suffix hsuffix hx),
      extent_cons, extent_cons, hsize, ← Nat.add_assoc, ← Nat.add_assoc]
  | case7 position c cs hblank hopening hclosing hword hoperator =>
    exact absurd rfl (h _ (List.mem_singleton_self _) c)

/-! ### Names -/

/-- The texts of the words that are no truth values. -/
structure IsName (text : String) : Prop where
  /-- A name has a character. -/
  ne_nil : text.toList ≠ []
  /-- A name is made of word characters. -/
  wordChars : ∀ c ∈ text.toList, isWordChar c = true
  /-- A name is not the word for truth. -/
  ne_true : text ≠ "true"
  /-- A name is not the word for falsehood. -/
  ne_false : text ≠ "false"

theorem isName_iff {text : String} :
    IsName text ↔
      text.toList ≠ [] ∧ text.toList.all isWordChar = true ∧ text ≠ "true" ∧ text ≠ "false" :=
  ⟨fun h => ⟨h.ne_nil, List.all_eq_true.mpr h.wordChars, h.ne_true, h.ne_false⟩,
    fun ⟨hnil, hword, htrue, hfalse⟩ => ⟨hnil, List.all_eq_true.mp hword, htrue, hfalse⟩⟩

instance (text : String) : Decidable (IsName text) :=
  decidable_of_iff _ isName_iff.symm

/-- The word of a name is a pattern. -/
theorem IsName.ofWord_toList {text : String} (h : IsName text) :
    Kind.ofWord text.toList = .pattern text := by
  have htrue : text.toList ≠ ['t', 'r', 'u', 'e'] := fun ht =>
    h.ne_true (String.toList_inj.mp ht)
  have hfalse : text.toList ≠ ['f', 'a', 'l', 's', 'e'] := fun hf =>
    h.ne_false (String.toList_inj.mp hf)
  rw [Kind.ofWord, if_neg htrue, if_neg hfalse, String.ofList_toList]

/-- A word never reads as an unrecognized character. -/
theorem Kind.ofWord_ne_unrecognized (word : List Char) (c : Char) :
    ofWord word ≠ unrecognized c := by
  rw [ofWord]
  split
  · simp
  · split <;> simp

/-- A word that is a pattern is a name. -/
theorem isName_of_ofWord {word : List Char} (hne : word ≠ [])
    (hword : ∀ c ∈ word, isWordChar c = true) {text : String}
    (h : Kind.ofWord word = .pattern text) : IsName text := by
  rw [Kind.ofWord] at h
  split at h
  · simp at h
  · next htrue =>
    split at h
    · simp at h
    · next hfalse =>
      cases h
      refine ⟨by rwa [String.toList_ofList], by rwa [String.toList_ofList], ?_, ?_⟩
      · rintro heq
        exact htrue (by rw [← String.toList_ofList (l := word), heq]; rfl)
      · rintro heq
        exact hfalse (by rw [← String.toList_ofList (l := word), heq]; rfl)

/-- **Every scanned pattern is a name.** -/
theorem isName_of_mem_scanFrom {position : Nat} {cs : List Char} {t : Token}
    (ht : t ∈ scanFrom position cs) {text : String} (htext : t.kind = .pattern text) :
    IsName text := by
  fun_induction scanFrom position cs with
  | case1 position => simp at ht
  | case2 position c cs hblank ih => exact ih ht
  | case3 position cs hblank ih | case4 position cs hblank hopening ih =>
    rcases List.mem_cons.mp ht with rfl | ht
    · simp at htext
    · exact ih ht
  | case5 position c cs hblank hopening hclosing hword word ih =>
    rcases List.mem_cons.mp ht with rfl | ht
    · refine isName_of_ofWord (List.cons_ne_nil _ _) (fun d hd => ?_) htext
      rcases List.mem_cons.mp hd with rfl | hd
      · exact hword
      · exact List.mem_takeWhile_imp hd
    · exact ih ht
  | case6 position c cs hblank hopening hclosing hword operator hoperator ih =>
    rcases List.mem_cons.mp ht with rfl | ht
    · obtain ⟨⟨-, rfl⟩ | ⟨-, rfl⟩, -⟩ := operatorAt_eq_some hoperator <;> simp at htext
    · exact ih ht
  | case7 position c cs hblank hopening hclosing hword hoperator =>
    rw [List.mem_singleton.mp ht] at htext
    simp at htext

end AccessRules.Token
