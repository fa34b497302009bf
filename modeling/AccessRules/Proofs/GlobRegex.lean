import AccessRules.Glob
import AccessRules.Proofs.GlobMeaning

/-!
# What a glob matches

A glob matches exactly the names that its pattern means, as long as the library that compiles its
expression keeps its promises. The built-in library keeps them.

## Main statements

* `Glob.denotes_bodyFrom`: what the expression of a pattern stands for
* `Glob.tells_of_documented`: a glob tells what its pattern means
* `Builtin.documented_regexLibrary`: the promises can be kept
-/

namespace AccessRules

open RegexLibrary (escape Plain Documented)

/-! ### The expression of a pattern -/

namespace Glob

section Documented

variable [RegexLibrary] {Denotes : String → List Char → Prop}

theorem plain_bodyFrom (literal : String) (cs : List Char) : Plain (bodyFrom literal cs) := by
  induction cs generalizing literal with
  | nil =>
    rw [bodyFrom, ← String.append_empty (s := escape literal)]
    exact .escape literal .nil
  | cons c cs ih =>
    rw [bodyFrom]
    split
    · rw [String.append_assoc]
      exact .escape literal (.anyRun (ih ""))
    split
    · rw [String.append_assoc]
      exact .escape literal (.anyOne (ih ""))
    · exact ih (literal.push c)

/-- The text that is still to be written comes first, and the rest is what the rest of the pattern
means. -/
theorem denotes_bodyFrom (hlib : Documented Denotes) {literal : String} {cs name : List Char} :
    Denotes (bodyFrom literal cs) name ↔
      ∃ rest, name = literal.toList ++ rest ∧ Splits cs rest := by
  induction cs generalizing literal name with
  | nil =>
    rw [bodyFrom, ← String.append_empty (s := escape literal), hlib.escape literal .nil]
    simp only [hlib.nil, splits_nil]
  | cons c cs ih =>
    rw [bodyFrom]
    split
    case isTrue hstar =>
      subst hstar
      have hrest := plain_bodyFrom "" cs
      rw [String.append_assoc, hlib.escape literal (.anyRun hrest)]
      simp only [hlib.anyRun hrest, ih, splits_star, String.toList_empty, List.nil_append,
        exists_eq_left']
    case isFalse hstar =>
      split
      case isTrue hquestion =>
        subst hquestion
        have hrest := plain_bodyFrom "" cs
        rw [String.append_assoc, hlib.escape literal (.anyOne hrest)]
        simp only [hlib.anyOne hrest, ih, splits_question, String.toList_empty,
          List.nil_append, exists_eq_left']
      case isFalse hquestion =>
        rw [ih, String.toList_push]
        simp only [splits_char hstar hquestion, List.append_assoc, List.singleton_append]
        constructor
        · rintro ⟨rest, rfl, hrest⟩
          exact ⟨c :: rest, rfl, rest, rfl, hrest⟩
        · rintro ⟨_, rfl, rest, rfl, hrest⟩
          exact ⟨rest, rfl, hrest⟩

/-- A glob matches the names that its pattern means. -/
theorem isMatch_eq_true_iff (hlib : Documented Denotes) {g : Glob} {name : String} :
    g.isMatch name = true ↔ Splits g.source.toList name.toList := by
  rw [isMatch, hlib.anchored (plain_bodyFrom "" g.source.toList) g.compile_regexText,
    denotes_bodyFrom hlib]
  simp

/-- **Globs match what their patterns mean**, whichever library of regular expressions compiles
them, as long as it keeps its promises. -/
theorem tells_of_documented (hlib : Documented Denotes) (pattern : String) :
    ∀ g, compile pattern = .ok g → g.source = pattern ∧ Tells pattern g.isMatch g.filter := by
  intro g hg
  have hsource := source_of_compile hg
  refine ⟨hsource, tells_of_iff (fun name => ?_) fun _ => rfl⟩
  rw [isMatch_eq_true_iff hlib, hsource]

end Documented

end Glob

/-! ### The built-in library -/

namespace Builtin

/-- What an expression stands for in the built-in library. -/
def Denotes (body : String) (cs : List Char) : Prop :=
  matchesChars (read body.toList) cs = true

theorem read_escapeChar (c : Char) (cs : List Char) :
    read (escapeChar c ++ cs) = .exactly c :: read cs := by
  rw [escapeChar]
  split
  case isTrue => rfl
  case isFalse h =>
    have hbackslash : c ≠ '\\' := fun hc => h (hc ▸ by decide)
    have hdot : c ≠ '.' := fun hc => h (hc ▸ by decide)
    rw [List.singleton_append, read]
    · simp [hbackslash]
    · simp [hdot]
    · simp [hdot]

theorem read_flatMap_escapeChar (text cs : List Char) :
    read (text.flatMap escapeChar ++ cs) = text.map Piece.exactly ++ read cs := by
  induction text with
  | nil => rfl
  | cons c text ih =>
    rw [List.flatMap_cons, List.append_assoc, read_escapeChar, ih, List.map_cons, List.cons_append]

/-- No quantifier stands first, so what is written before is read as it was meant. -/
theorem head?_ne_star {body : String} (h : Plain body) : body.toList.head? ≠ some '*' := by
  induction h with
  | nil => simp
  | escape text _ ih =>
    rw [String.toList_append, RegexLibrary.escape, regexLibrary, String.toList_ofList]
    cases text.toList with
    | nil => exact ih
    | cons c text =>
      rw [List.flatMap_cons, escapeChar]
      split
      case isTrue => simp
      case isFalse h =>
        have hstar : c ≠ '*' := fun hc => h (hc ▸ by decide)
        simp [hstar]
  | anyOne => simp
  | anyRun => simp

theorem read_dot {cs : List Char} (h : cs.head? ≠ some '*') :
    read ('.' :: cs) = .anyOne :: read cs := by
  rw [read]
  rintro rest rfl
  exact h rfl

theorem matchesChars_exactly_iff {text name : List Char} {pieces : List Piece} :
    matchesChars (text.map Piece.exactly ++ pieces) name = true ↔
      ∃ rest, name = text ++ rest ∧ matchesChars pieces rest = true := by
  induction text generalizing name with
  | nil => simp
  | cons c text ih =>
    rw [List.map_cons, List.cons_append, Glob.matchesChars_one_iff (by simp)]
    simp [ih, Piece.admits]

theorem pieces_of_compile {body : String} {pieces : List Piece}
    (h : compile ("(?s)^" ++ body ++ "$") = .ok pieces) : pieces = read body.toList := by
  have hbody : (("(?s)^" ++ body ++ "$").toList.drop 5).dropLast = body.toList := by simp
  rw [compile, hbody, if_pos (by simp)] at h
  dsimp only at h
  split at h
  · exact (Except.ok.inj h).symm
  · cases h

/-- **The built-in library keeps the promises.** -/
theorem documented_regexLibrary : RegexLibrary.Documented Denotes where
  nil cs := by simp [Denotes, read]
  escape text {rest} h cs := by
    have hread : read (RegexLibrary.escape text ++ rest).toList =
        text.toList.map Piece.exactly ++ read rest.toList := by
      rw [String.toList_append, RegexLibrary.escape, regexLibrary, String.toList_ofList,
        read_flatMap_escapeChar]
    rw [Denotes, hread, matchesChars_exactly_iff]
    rfl
  anyOne {rest} h cs := by
    have hread : read ("." ++ rest).toList = .anyOne :: read rest.toList := by
      rw [String.toList_append]
      exact read_dot (head?_ne_star h)
    rw [Denotes, hread, Glob.matchesChars_one_iff (by simp)]
    simp only [Piece.admits, true_and, Denotes]
  anyRun {rest} h cs := by
    have hread : read (".*" ++ rest).toList = .anyRun :: read rest.toList := by
      rw [String.toList_append]
      rfl
    rw [Denotes, hread, Glob.matchesChars_anyRun_iff]
    rfl
  anchored {body regex} h hcompile name := by
    obtain rfl := pieces_of_compile hcompile
    rfl

end Builtin

namespace Glob

open Builtin

/-- Characters with a meaning of their own in expressions stand for themselves, and wildcards go
across lines. -/
theorem tells_metacharacters :
    RegexLibrary.Documented Builtin.Denotes ∧
    ∃ g, compile "a.[?]*$" = .ok g ∧ Tells "a.[?]*$" g.isMatch g.filter ∧
      g.filter ["a.[\n]$$", "ab[x]$", "a.[]$", "a.[\n]$$"] = ["a.[\n]$$", "a.[\n]$$"] := by
  obtain ⟨g, hg⟩ : ∃ g, compile "a.[?]*$" = .ok g := exists_compile_eq_ok rfl
  obtain ⟨-, htells⟩ := tells_of_documented documented_regexLibrary "a.[?]*$" g hg
  refine ⟨documented_regexLibrary, g, hg, htells, ?_⟩
  rw [htells.filter_eq]
  decide +kernel

end Glob

end AccessRules
