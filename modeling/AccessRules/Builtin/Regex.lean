import AccessRules.Regex

/-!
# A built-in library of regular expressions

This library reads the few expressions that globs give rise to: between the anchors, `.`, `.*`, and
characters with or without a backslash before them, and nothing else. It is what the executable is
run with.

## Main definitions

* `Builtin.Piece`, `Builtin.read`: the parts of an expression
* `Builtin.matchesChars`: whether the parts match the whole of a text
* `Builtin.regexLibrary`: the library

## Main statements

* `matchesChars_nil`, `matchesChars_cons_nil`, `matchesChars_cons_cons`,
  `matchesChars_anyRun_nil`, `matchesChars_anyRun_cons`: matching by the first part of the
  expression and the first character of the text

## Implementation notes

Several `.*` give a text exponentially many ways to fall into pieces, so matching does not try them
one by one. It reads the parts from the last to the first and keeps, for every end of the text,
whether the parts read so far match that end: a list of truth values, one longer than the text. One
part turns this list into the next in time linear in the text.

The limit on the size of an expression is put in terms of its wildcards, which take up nearly all of
what an expression of this kind is compiled to. Only this library has that limit.
-/

namespace AccessRules.Builtin

/-! ### Expressions -/

/-- What a part of an expression stands for. -/
inductive Piece where
  /-- Any run of characters: `.*`. -/
  | anyRun
  /-- Any one character: `.`. -/
  | anyOne
  /-- This character. -/
  | exactly (char : Char)
  deriving DecidableEq, Repr

/-- Whether a piece stands for more than one text. -/
def Piece.isWildcard : Piece → Bool
  | anyRun | anyOne => true
  | exactly _ => false

/-- Whether a piece can stand for this one character. -/
def Piece.admits : Piece → Char → Bool
  | anyRun, _ => true
  | anyOne, _ => true
  | exactly d, c => c == d

/-- What an expression is made up of. -/
def read : List Char → List Piece
  | '\\' :: c :: cs => .exactly c :: read cs
  | '.' :: '*' :: cs => .anyRun :: read cs
  | '.' :: cs => .anyOne :: read cs
  | c :: cs => .exactly c :: read cs
  | [] => []

/-- The characters that mean more than themselves in an expression. -/
def metacharacters : List Char :=
  "\\.+*?()|[]\x7b\x7d^$#&-~".toList

/-- A character for itself. -/
def escapeChar (c : Char) : List Char :=
  if c ∈ metacharacters then ['\\', c] else [c]

/-! ### Matching -/

/-- For every end of a name, longest first, whether the pieces match it. -/
abbrev Row := List Bool

/-- The row of no pieces: they match the empty end only. -/
def emptyRow : List Char → Row
  | [] => [true]
  | _ :: cs => false :: emptyRow cs

/-- The row after one more piece that stands for one character. An end matches if its first
character is admitted and the end after it matched before. -/
def stepOne (piece : Piece) : List Char → Row → Row
  | c :: cs, _ :: row => (piece.admits c && row.headD false) :: stepOne piece cs row
  | _, _ => [false]

/-- The row after one more run. An end matches if it or any end of it matched before. -/
def stepRun : Row → Row
  | [] => []
  | b :: row =>
    match stepRun row with
    | [] => [b]
    | later :: rest => (b || later) :: later :: rest

/-- The row after one more piece. -/
def step (name : List Char) (piece : Piece) (row : Row) : Row :=
  match piece with
  | .anyRun => stepRun row
  | piece => stepOne piece name row

/-- The row of a list of pieces. -/
def row (pieces : List Piece) (name : List Char) : Row :=
  pieces.foldr (step name) (emptyRow name)

/-- Whether the pieces match the whole of a name. -/
def matchesChars (pieces : List Piece) (name : List Char) : Bool :=
  (row pieces name).headD false

/-! ### Matching from the front

A row is never taken apart outside this section: matching has one equation for each kind of first
piece.
-/

theorem stepRun_ne_nil {r : Row} (h : r ≠ []) : stepRun r ≠ [] := by
  cases r with
  | nil => exact absurd rfl h
  | cons b r =>
    simp only [stepRun]
    split <;> simp

theorem stepRun_cons {b : Bool} {r : Row} (h : r ≠ []) :
    stepRun (b :: r) = (b || (stepRun r).headD false) :: stepRun r := by
  cases hr : stepRun r with
  | nil => exact absurd hr (stepRun_ne_nil h)
  | cons later rest => simp [stepRun, hr]

theorem step_ne_nil {name : List Char} {piece : Piece} {r : Row} (h : r ≠ []) :
    step name piece r ≠ [] := by
  cases piece
  case anyRun => exact stepRun_ne_nil h
  all_goals
    simp only [step]
    cases name <;> cases r <;> simp [stepOne]

theorem row_ne_nil (pieces : List Piece) (name : List Char) : row pieces name ≠ [] := by
  induction pieces with
  | nil => cases name <;> simp [row, emptyRow]
  | cons piece pieces ih => exact step_ne_nil ih

/-- The rows of the ends of a name are the ends of its row. -/
theorem row_cons_name (pieces : List Piece) (c : Char) (cs : List Char) :
    row pieces (c :: cs) = matchesChars pieces (c :: cs) :: row pieces cs := by
  suffices h : ∃ b, row pieces (c :: cs) = b :: row pieces cs by
    obtain ⟨b, hb⟩ := h
    rw [matchesChars, hb]
    rfl
  induction pieces with
  | nil => exact ⟨false, rfl⟩
  | cons piece pieces ih =>
    obtain ⟨b, hb⟩ := ih
    change ∃ b', step (c :: cs) piece (row pieces (c :: cs)) = b' :: step cs piece (row pieces cs)
    rw [hb]
    cases piece
    case anyRun => exact ⟨_, stepRun_cons (row_ne_nil pieces cs)⟩
    all_goals exact ⟨_, rfl⟩

/-- No piece is left only where no character is. -/
@[simp] theorem matchesChars_nil (name : List Char) : matchesChars [] name = name.isEmpty := by
  cases name <;> rfl

/-- A piece that stands for one character needs one. -/
theorem matchesChars_cons_nil {piece : Piece} (h : piece ≠ .anyRun) (pieces : List Piece) :
    matchesChars (piece :: pieces) [] = false := by
  cases piece
  case anyRun => exact absurd rfl h
  all_goals rfl

/-- A piece that stands for one character takes the first one. -/
theorem matchesChars_cons_cons {piece : Piece} (h : piece ≠ .anyRun) (pieces : List Piece)
    (c : Char) (cs : List Char) :
    matchesChars (piece :: pieces) (c :: cs) = (piece.admits c && matchesChars pieces cs) := by
  change (step (c :: cs) piece (row pieces (c :: cs))).headD false = _
  rw [row_cons_name]
  cases piece
  case anyRun => exact absurd rfl h
  all_goals rfl

/-- At the end of a name, a run is empty. -/
@[simp] theorem matchesChars_anyRun_nil (pieces : List Piece) :
    matchesChars (.anyRun :: pieces) [] = matchesChars pieces [] := by
  change (stepRun (row pieces [])).headD false = (row pieces []).headD false
  cases hr : row pieces [] with
  | nil => exact absurd hr (row_ne_nil pieces [])
  | cons b r =>
    suffices h : r = [] by simp [h, stepRun]
    have length_row : (row pieces []).length = 1 := by
      clear hr
      induction pieces with
      | nil => rfl
      | cons piece pieces ih =>
        change (step [] piece (row pieces [])).length = 1
        obtain ⟨b', hb'⟩ := List.length_eq_one_iff.1 ih
        rw [hb']
        cases piece <;> rfl
    simpa [hr] using length_row

/-- Elsewhere a run is empty, or takes a character and goes on. -/
theorem matchesChars_anyRun_cons (pieces : List Piece) (c : Char) (cs : List Char) :
    matchesChars (.anyRun :: pieces) (c :: cs) =
      (matchesChars pieces (c :: cs) || matchesChars (.anyRun :: pieces) cs) := by
  change (stepRun (row pieces (c :: cs))).headD false = _
  rw [row_cons_name, stepRun_cons (row_ne_nil pieces cs)]
  rfl

/-! ### The library -/

/-- How many wildcards an expression may have. -/
def maxWildcards : Nat := 12000

/-- Read the expression between the anchors. -/
def compile (text : String) : Except RegexError (List Piece) :=
  let body := (text.toList.drop 5).dropLast
  if text.toList = "(?s)^".toList ++ body ++ ['$'] then
    let pieces := read body
    if pieces.countP Piece.isWildcard ≤ maxWildcards then .ok pieces
    else .error ⟨"Compiled regex exceeds size limit of 10485760 bytes."⟩
  else .error ⟨"unsupported expression"⟩

/-- The library that the executable is run with. -/
scoped instance regexLibrary : RegexLibrary where
  Regex := List Piece
  compile := compile
  isMatch pieces name := matchesChars pieces name.toList
  escape text := String.ofList (text.toList.flatMap escapeChar)

end AccessRules.Builtin
