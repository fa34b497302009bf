import AccessRules.Builtin.Regex
import Mathlib.Data.List.Forall2

/-!
# What globs mean

A glob matches a name if the name falls into consecutive pieces, one for each character of the
pattern, and each piece is one that its character can stand for. Nothing is said about how the
pieces are found.

## Main definitions

* `Glob.StandsFor`: what a character of a pattern can stand for
* `Glob.Splits`: a name falls into the pieces of a pattern
* `Glob.Tells`: a test of names tells what a pattern means

## Main statements

* `splits_star`, `splits_question`, `splits_char`: the meaning, by the first character of a pattern
* `matchesChars_iff_splits`: matching decides the meaning
* `splits_iff_eq`: without wildcards a pattern means only itself
-/

namespace AccessRules.Glob

/-! ### Pieces -/

/-- What a character of a pattern can stand for: `*` for any text, `?` for any one character, and
every other character for itself. -/
def StandsFor (c : Char) (piece : List Char) : Prop :=
  if c = '*' then True else if c = '?' then ∃ d, piece = [d] else piece = [c]

/-- A name falls into consecutive pieces that the characters of a pattern stand for in order. -/
def Splits (pattern name : List Char) : Prop :=
  ∃ pieces : List (List Char), pieces.flatten = name ∧ List.Forall₂ StandsFor pattern pieces

variable {pattern name : List Char}

theorem splits_nil : Splits [] name ↔ name = [] := by
  constructor
  · rintro ⟨pieces, rfl, hpieces⟩
    cases hpieces
    rfl
  · rintro rfl
    exact ⟨[], rfl, .nil⟩

/-- The first piece is one that the first character stands for, and the rest falls into the other
pieces. -/
theorem splits_cons {c : Char} :
    Splits (c :: pattern) name ↔
      ∃ piece rest, name = piece ++ rest ∧ StandsFor c piece ∧ Splits pattern rest := by
  constructor
  · rintro ⟨pieces, rfl, hpieces⟩
    cases hpieces with
    | @cons _ piece _ pieces hpiece hpieces =>
      exact ⟨piece, pieces.flatten, rfl, hpiece, pieces, rfl, hpieces⟩
  · rintro ⟨piece, rest, rfl, hpiece, pieces, rfl, hpieces⟩
    exact ⟨piece :: pieces, rfl, .cons hpiece hpieces⟩

theorem splits_star :
    Splits ('*' :: pattern) name ↔ ∃ piece rest, name = piece ++ rest ∧ Splits pattern rest := by
  rw [splits_cons]
  simp [StandsFor]

theorem splits_question :
    Splits ('?' :: pattern) name ↔ ∃ c rest, name = c :: rest ∧ Splits pattern rest := by
  rw [splits_cons]
  constructor
  · rintro ⟨piece, rest, rfl, hpiece, hrest⟩
    obtain ⟨c, rfl⟩ : ∃ c, piece = [c] := by simpa [StandsFor] using hpiece
    exact ⟨c, rest, rfl, hrest⟩
  · rintro ⟨c, rest, rfl, hrest⟩
    exact ⟨[c], rest, rfl, by simp [StandsFor], hrest⟩

theorem splits_char {c : Char} (hstar : c ≠ '*') (hquestion : c ≠ '?') :
    Splits (c :: pattern) name ↔ ∃ rest, name = c :: rest ∧ Splits pattern rest := by
  rw [splits_cons]
  constructor
  · rintro ⟨piece, rest, rfl, hpiece, hrest⟩
    obtain rfl : piece = [c] := by simpa [StandsFor, hstar, hquestion] using hpiece
    exact ⟨rest, rfl, hrest⟩
  · rintro ⟨rest, rfl, hrest⟩
    exact ⟨[c], rest, rfl, by simp [StandsFor, hstar, hquestion], hrest⟩

/-- Without wildcards a pattern means only itself. -/
theorem splits_iff_eq (h : ∀ c ∈ pattern, c ≠ '*' ∧ c ≠ '?') :
    Splits pattern name ↔ name = pattern := by
  induction pattern generalizing name with
  | nil => exact splits_nil
  | cons c pattern ih =>
    obtain ⟨⟨hstar, hquestion⟩, hrest⟩ := List.forall_mem_cons.mp h
    rw [splits_char hstar hquestion]
    simp [ih hrest]

/-! ### Matching

A name can be tested for the meaning of a pattern, by the same rows that the built-in library
matches expressions with.
-/

open Builtin

/-- The piece that a character of a pattern stands for. -/
def pieceOf (c : Char) : Piece :=
  if c = '*' then .anyRun else if c = '?' then .anyOne else .exactly c

/-- A run in front matches any text before what the other pieces match. -/
theorem matchesChars_anyRun_iff {pieces : List Piece} :
    matchesChars (.anyRun :: pieces) name = true ↔
      ∃ piece rest, name = piece ++ rest ∧ matchesChars pieces rest = true := by
  induction name with
  | nil => simp
  | cons c name ih =>
    rw [matchesChars_anyRun_cons, Bool.or_eq_true, ih]
    constructor
    · rintro (h | ⟨piece, rest, rfl, h⟩)
      · exact ⟨[], c :: name, rfl, h⟩
      · exact ⟨c :: piece, rest, rfl, h⟩
    · rintro ⟨piece, rest, hname, h⟩
      cases piece with
      | nil => exact .inl (hname ▸ h)
      | cons d piece =>
        obtain ⟨-, rfl⟩ := List.cons.inj hname
        exact .inr ⟨piece, rest, rfl, h⟩

/-- A piece that stands for one character takes the first character of a name. -/
theorem matchesChars_one_iff {piece : Piece} (h : piece ≠ .anyRun) {pieces : List Piece} :
    matchesChars (piece :: pieces) name = true ↔
      ∃ c rest, name = c :: rest ∧ piece.admits c = true ∧ matchesChars pieces rest = true := by
  cases name with
  | nil => simp [matchesChars_cons_nil h]
  | cons c name =>
    rw [matchesChars_cons_cons h, Bool.and_eq_true]
    simp

/-- **Matching decides the meaning.** -/
theorem matchesChars_iff_splits :
    matchesChars (pattern.map pieceOf) name = true ↔ Splits pattern name := by
  induction pattern generalizing name with
  | nil => simp [splits_nil]
  | cons c pattern ih =>
    rw [List.map_cons]
    by_cases hstar : c = '*'
    · subst hstar
      rw [splits_star, show pieceOf '*' = .anyRun from rfl, matchesChars_anyRun_iff]
      simp only [ih]
    · by_cases hquestion : c = '?'
      · subst hquestion
        rw [splits_question, show pieceOf '?' = .anyOne from rfl,
          matchesChars_one_iff (by simp)]
        simp [Piece.admits, ih]
      · have hpiece : pieceOf c = .exactly c := by simp [pieceOf, hstar, hquestion]
        rw [splits_char hstar hquestion, hpiece, matchesChars_one_iff (by simp)]
        simp [Piece.admits, ih]

instance (pattern name : List Char) : Decidable (Splits pattern name) :=
  decidable_of_iff _ matchesChars_iff_splits

example : Splits "a*.?".toList "a\n.b".toList := by decide +kernel
example : ¬ Splits "a.?".toList "axb".toList := by decide +kernel

/-! ### Tests of names -/

/-- A test of names and the filter made of it tell what a pattern means. -/
structure Tells (pattern : String) (test : String → Bool) (filter : List String → List String) :
    Prop where
  /-- A name passes if it falls into the pieces of the pattern. -/
  eq_true_iff (name : String) : test name = true ↔ Splits pattern.toList name.toList
  /-- Without wildcards only the pattern itself passes. -/
  eq_true_iff_eq (h : ∀ c ∈ pattern.toList, c ≠ '*' ∧ c ≠ '?') (name : String) :
    test name = true ↔ name = pattern
  /-- Of some names those stay that pass, in their order and as often as they are there. -/
  filter_eq (names : List String) :
    filter names = names.filter fun name => Splits pattern.toList name.toList

/-- The first of the three says it all. -/
theorem tells_of_iff {pattern : String} {test : String → Bool} {filter : List String → List String}
    (htest : ∀ name, test name = true ↔ Splits pattern.toList name.toList)
    (hfilter : ∀ names, filter names = names.filter test) : Tells pattern test filter where
  eq_true_iff := htest
  eq_true_iff_eq h name := by rw [htest, splits_iff_eq h, String.toList_inj]
  filter_eq names := by
    rw [hfilter]
    refine List.filter_congr fun name _ => ?_
    rw [Bool.eq_iff_iff, htest, decide_eq_true_iff]

end AccessRules.Glob
