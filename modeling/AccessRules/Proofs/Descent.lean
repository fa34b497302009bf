import AccessRules.Proofs.OnePass
import Mathlib.Logic.Function.Iterate

/-!
# One cursor for all readers

The readers of phrases hand each other the tokens that are left, and each group gets its depth from
the one around it. They can just as well share one cursor: a position that only moves on, and a
count of open groups that goes up where a group is opened and down where what it holds has been
read. On an error the calls that are active return without counting down. Here that is a machine
with a stack of active calls, which comes to the same result as the readers. It shows what the
readers do not: what the count is in the middle of a call, and how many groups are active then.

## Main definitions

* `Descent.State`, `Descent.step`, `Descent.run`: the machine
* `Descent.activeGroups`: how many of the active calls read a group
* `Descent.Disciplined`: the bounds on the cursor
* `Descent.window`: the tokens that a phrase consists of and the token behind it, by their kinds

## Main statements

* `Disciplined.step`, `Disciplined.run`: the bounds are kept by each step, hence all the time
* `comesTo_read`: the machine comes to what the reader of a symbol reads
* `read_of_window_eq`: a reading that succeeds depends on no more than its window
* `run_of_call`: a call comes to an end, and what its cursor does until then and has done by then

## Implementation notes

Disjunctions and conjunctions are read by the same loop, with another operator and another kind of
operand, so there is one frame for both, `Frame.chain`. A chain that has no operand yet is a frame
without a left side.
-/

namespace AccessRules.Expr

open SyntaxError (unexpectedEnd unclosedGroup tooDeep)

/-! ### The two kinds of chains -/

/-- The chains of operands. -/
inductive Chain where
  /-- Conjunctions joined by `||`. -/
  | disjunction
  /-- Terms joined by `&&`. -/
  | conjunction
  deriving DecidableEq, Repr

namespace Chain

/-- The symbol whose phrases are the chains. -/
def symbol : Chain → Symbol
  | disjunction => .disjunction
  | conjunction => .conjunction

/-- The symbol whose phrases are the operands. -/
def operand : Chain → Symbol
  | disjunction => .conjunction
  | conjunction => .term

/-- What stands between two operands. -/
def operator : Chain → Token.Kind
  | disjunction => .or
  | conjunction => .and

/-- The tree of a chain that goes on with the operand `r`. -/
def join : Chain → Expr → Expr → Expr
  | disjunction => .or
  | conjunction => .and

/-- The tree of a chain after the operand `e`, which is its first one if nothing is left of it. -/
def extend (c : Chain) : Option Expr → Expr → Expr
  | none, e => e
  | some left, e => c.join left e

/-- How the reader of a chain goes on after its first operands. -/
def more (limit depth : Nat) : Chain → Expr → List Token → Reading
  | disjunction => disjuncts limit depth
  | conjunction => conjuncts limit depth

variable (c : Chain) (limit depth : Nat)

/-- A chain begins with an operand. -/
theorem read_eq (ts : List Token) :
    c.symbol.read limit depth ts =
      (c.operand.read limit depth ts).bind fun p => c.more limit depth p.1 p.2 := by
  cases c with
  | disjunction => exact disjunction_eq limit depth ts
  | conjunction => exact conjunction_eq limit depth ts

theorem more_nil (left : Expr) : c.more limit depth left [] = .ok (left, []) := by
  cases c with
  | disjunction => exact disjuncts_nil limit depth left
  | conjunction => exact conjuncts_nil limit depth left

/-- A chain goes on behind its operator. -/
theorem more_cons (left : Expr) (t : Token) (ts : List Token) :
    c.more limit depth left (t :: ts) =
      if t.kind = c.operator then
        (c.operand.read limit depth ts).bind fun p => c.more limit depth (c.join left p.1) p.2
      else .ok (left, t :: ts) := by
  cases c with
  | disjunction => exact disjuncts_cons limit depth left t ts
  | conjunction => exact conjuncts_cons limit depth left t ts

end Chain

namespace Descent

/-! ### The machine -/

/-- What all calls share. -/
structure Cursor where
  /-- The place of the next token in the list. -/
  position : Nat
  /-- The count of open groups. -/
  depth : Nat
  deriving DecidableEq, Repr

/-- Past the next token. -/
def Cursor.advance (cursor : Cursor) : Cursor :=
  { cursor with position := cursor.position + 1 }

/-- Inside one more group. -/
def Cursor.deeper (cursor : Cursor) : Cursor :=
  { cursor with depth := cursor.depth + 1 }

/-- Inside one group less. -/
def Cursor.shallower (cursor : Cursor) : Cursor :=
  { cursor with depth := cursor.depth - 1 }

/-- A call that waits for the result of another. -/
inductive Frame where
  /-- A chain waits for an operand to the right of `left`, or for its first one. -/
  | chain (c : Chain) (left : Option Expr)
  /-- The group that was opened at `position` waits for what it holds. -/
  | group (position : Nat)
  deriving DecidableEq, Repr

/-- What is done next. -/
inductive Control where
  /-- A phrase of the symbol `s` is read. -/
  | call (s : Symbol)
  /-- A result is handed back. -/
  | answer (r : Except SyntaxError Expr)

/-- A state of the machine. The innermost active call is the first of the stack. -/
structure State where
  control : Control
  stack : List Frame
  cursor : Cursor

/-- Before a call of the reader of `s`. -/
def entry (s : Symbol) (start : Cursor) : State :=
  ⟨.call s, [], start⟩

/-- After a call with the result `r`. -/
def ended (r : Except SyntaxError Expr) (stop : Cursor) : State :=
  ⟨.answer r, [], stop⟩

/-- A call that reads a term. -/
def readTerm (limit : Nat) (ts : List Token) (stack : List Frame) (cursor : Cursor) : State :=
  match ts[cursor.position]? with
  | none => ⟨.answer (.error unexpectedEnd), stack, cursor⟩
  | some t =>
    match t.kind with
    | .literal value => ⟨.answer (.ok (.literal value)), stack, cursor.advance⟩
    | .pattern text => ⟨.answer (.ok (.pattern text)), stack, cursor.advance⟩
    | .opening =>
      if limit ≤ cursor.depth then ⟨.answer (.error (tooDeep limit)), stack, cursor.advance⟩
      else ⟨.call .disjunction, .group t.position :: stack, cursor.advance.deeper⟩
    | _ => ⟨.answer (.error (misplaced t)), stack, cursor.advance⟩

/-- What a call begins with. -/
def enter (limit : Nat) (ts : List Token) (stack : List Frame) (cursor : Cursor) :
    Symbol → State
  | .disjunction => ⟨.call .conjunction, .chain .disjunction none :: stack, cursor⟩
  | .conjunction => ⟨.call .term, .chain .conjunction none :: stack, cursor⟩
  | .term => readTerm limit ts stack cursor

/-- What a waiting call does with the tree that it waits for. -/
def resume (ts : List Token) (e : Expr) (stack : List Frame) (cursor : Cursor) : Frame → State
  | .chain c left =>
    if ts[cursor.position]?.map Token.kind = some c.operator then
      ⟨.call c.operand, .chain c (some (c.extend left e)) :: stack, cursor.advance⟩
    else ⟨.answer (.ok (c.extend left e)), stack, cursor⟩
  | .group position =>
    match ts[cursor.position]? with
    | none => ⟨.answer (.error (unclosedGroup position)), stack, cursor.shallower⟩
    | some t =>
      ⟨.answer (if t.kind = .closing then .ok e else .error (misplaced t)), stack,
        cursor.shallower.advance⟩

/-- One step. A result that nobody waits for stays. -/
def step (limit : Nat) (ts : List Token) : State → State
  | ⟨.call s, stack, cursor⟩ => enter limit ts stack cursor s
  | ⟨.answer r, [], cursor⟩ => ended r cursor
  | ⟨.answer (.error e), _ :: stack, cursor⟩ => ⟨.answer (.error e), stack, cursor⟩
  | ⟨.answer (.ok e), frame :: stack, cursor⟩ => resume ts e stack cursor frame

/-- So many steps. -/
def run (limit : Nat) (ts : List Token) (n : Nat) (st : State) : State :=
  (step limit ts)^[n] st

section Run

variable {limit : Nat} {ts : List Token}

theorem run_succ (n : Nat) (st : State) :
    run limit ts (n + 1) st = step limit ts (run limit ts n st) :=
  Function.iterate_succ_apply' _ n st

theorem run_add (m n : Nat) (st : State) :
    run limit ts (m + n) st = run limit ts m (run limit ts n st) :=
  Function.iterate_add_apply _ m n st

@[simp] theorem run_ended (n : Nat) (r : Except SyntaxError Expr) (stop : Cursor) :
    run limit ts n (ended r stop) = ended r stop := by
  induction n with
  | zero => rfl
  | succ n ih =>
    rw [run_succ, ih]
    rfl

end Run

/-! ### The bounds on the cursor -/

/-- The number of the active calls that read a group. -/
def activeGroups : List Frame → Nat
  | [] => 0
  | .chain _ _ :: stack => activeGroups stack
  | .group _ :: stack => activeGroups stack + 1

/-- The cursor stands in a list of `length` tokens, the count is within the limit, and it is not
less than the count `base` at the beginning and the groups that are active since. -/
structure Disciplined (limit length base : Nat) (st : State) : Prop where
  position_le : st.cursor.position ≤ length
  depth_le : st.cursor.depth ≤ limit
  le_depth : base + activeGroups st.stack ≤ st.cursor.depth

namespace Disciplined

variable {limit base : Nat} {ts : List Token}

/-- **A term keeps the bounds**, as a group is opened only below the limit. -/
theorem readTerm {stack : List Frame} {cursor : Cursor}
    (hposition : cursor.position ≤ ts.length) (hdepth : cursor.depth ≤ limit)
    (hactive : base + activeGroups stack ≤ cursor.depth) :
    Disciplined limit ts.length base (readTerm limit ts stack cursor) := by
  rw [Descent.readTerm]
  cases ht : ts[cursor.position]? with
  | none => exact ⟨hposition, hdepth, hactive⟩
  | some t =>
    have hlt : cursor.position < ts.length := (List.getElem?_eq_some_iff.mp ht).1
    have hanswer : ∀ r, Disciplined limit ts.length base ⟨.answer r, stack, cursor.advance⟩ :=
      fun r => ⟨hlt, hdepth, hactive⟩
    obtain ⟨kind, position⟩ := t
    cases kind with
    | literal _ | pattern _ | closing | and | or | unrecognized _ => exact hanswer _
    | opening =>
      by_cases hfull : limit ≤ cursor.depth
      · simp only [if_pos hfull]
        exact hanswer _
      · simp only [if_neg hfull]
        exact ⟨hlt, Nat.lt_of_not_le hfull, Nat.succ_le_succ hactive⟩

/-- **A call that goes on keeps the bounds**: a group that has been read was counted. -/
theorem resume {e : Expr} {frame : Frame} {stack : List Frame} {cursor : Cursor}
    (hposition : cursor.position ≤ ts.length) (hdepth : cursor.depth ≤ limit)
    (hactive : base + activeGroups (frame :: stack) ≤ cursor.depth) :
    Disciplined limit ts.length base (resume ts e stack cursor frame) := by
  cases frame with
  | chain c left =>
    rw [Descent.resume]
    split
    · next hoperator =>
      obtain ⟨t, ht, -⟩ := Option.map_eq_some_iff.mp hoperator
      exact ⟨(List.getElem?_eq_some_iff.mp ht).1, hdepth, hactive⟩
    · exact ⟨hposition, hdepth, hactive⟩
  | group position =>
    have hshallower : cursor.depth - 1 ≤ limit := Nat.le_trans (Nat.sub_le _ 1) hdepth
    have hcounted : base + activeGroups stack ≤ cursor.depth - 1 := Nat.le_sub_one_of_lt hactive
    rw [Descent.resume]
    cases ht : ts[cursor.position]? with
    | none => exact ⟨hposition, hshallower, hcounted⟩
    | some t => exact ⟨(List.getElem?_eq_some_iff.mp ht).1, hshallower, hcounted⟩

/-- **A step keeps the bounds.** -/
theorem step {st : State} (h : Disciplined limit ts.length base st) :
    Disciplined limit ts.length base (step limit ts st) := by
  obtain ⟨control, stack, cursor⟩ := st
  obtain ⟨hposition, hdepth, hactive⟩ := h
  cases control with
  | call s =>
    cases s with
    | disjunction | conjunction => exact ⟨hposition, hdepth, hactive⟩
    | term => exact readTerm hposition hdepth hactive
  | answer r =>
    cases stack with
    | nil => exact ⟨hposition, hdepth, hactive⟩
    | cons frame stack =>
      cases r with
      | ok e => exact resume hposition hdepth hactive
      | error e =>
        -- the frame is dropped, and the count stays as high as it was
        refine ⟨hposition, hdepth, Nat.le_trans ?_ hactive⟩
        cases frame with
        | chain c left => exact Nat.le_refl _
        | group position => exact Nat.le_succ _

/-- **The bounds are kept all the time.** -/
theorem run {st : State} (h : Disciplined limit ts.length base st) (n : Nat) :
    Disciplined limit ts.length base (run limit ts n st) := by
  induction n with
  | zero => exact h
  | succ n ih =>
    rw [run_succ]
    exact ih.step

end Disciplined

/-! ### The machine and the readers -/

/-- From the state `st` the machine comes to the reading `r`: it hands its result back to `stack`.
If that is a tree, the cursor stands at the tokens that are left, and the count is `depth`. -/
def ComesTo (limit : Nat) (ts : List Token) (st : State) (stack : List Frame) (depth : Nat)
    (r : Reading) : Prop :=
  ∃ n answer stop, run limit ts n st = ⟨.answer answer, stack, stop⟩ ∧
    r = answer.map (fun e => (e, ts.drop stop.position)) ∧ ∀ e, answer = .ok e → stop.depth = depth

section Readings

variable {limit : Nat} {ts : List Token} {st : State} {stack : List Frame} {depth : Nat}

/-- An error that is handed back is where a reading that fails comes to. -/
theorem comesTo_error (e : SyntaxError) (stop : Cursor) :
    ComesTo limit ts ⟨.answer (.error e), stack, stop⟩ stack depth (.error e) := by
  refine ⟨0, .error e, stop, rfl, rfl, fun e' h => ?_⟩
  cases h

/-- A tree that is handed back is where a reading comes to that stops at the cursor. -/
theorem comesTo_ok (e : Expr) (stop : Cursor) :
    ComesTo limit ts ⟨.answer (.ok e), stack, stop⟩ stack stop.depth
      (.ok (e, ts.drop stop.position)) :=
  ⟨0, .ok e, stop, rfl, rfl, fun _ _ => rfl⟩

/-- One step more at the front. -/
theorem ComesTo.of_step {r : Reading} (h : ComesTo limit ts (step limit ts st) stack depth r) :
    ComesTo limit ts st stack depth r := by
  obtain ⟨n, answer, stop, hrun, hr, hdepth⟩ := h
  exact ⟨n + 1, answer, stop, by rw [run_add]; exact hrun, hr, hdepth⟩

/-- **A call and what its caller does with the tree.** An error goes past the caller. -/
theorem ComesTo.bind {frame : Frame} {outer : Nat} {r : Reading}
    {next : Expr × List Token → Reading} (h : ComesTo limit ts st (frame :: stack) depth r)
    (hnext : ∀ e position, r = .ok (e, ts.drop position) →
      ComesTo limit ts ⟨.answer (.ok e), frame :: stack, ⟨position, depth⟩⟩ stack outer
        (next (e, ts.drop position))) :
    ComesTo limit ts st stack outer (r.bind next) := by
  obtain ⟨n, answer, stop, hrun, rfl, hdepth⟩ := h
  cases answer with
  | error e =>
    refine ⟨n + 1, .error e, stop, ?_, rfl, fun e' h => by cases h⟩
    rw [run_succ, hrun]
    rfl
  | ok e =>
    obtain ⟨m, answer, stop', hrun', hr, hdepth'⟩ := hnext e stop.position rfl
    refine ⟨m + n, answer, stop', ?_, hr, hdepth'⟩
    rw [run_add, hrun, ← hrun', ← hdepth e rfl]

/-- Where tokens are left, the cursor stands at the first of them. -/
theorem getElem?_of_drop_eq_cons {position : Nat} {t : Token} {us : List Token}
    (h : ts.drop position = t :: us) : ts[position]? = some t ∧ ts.drop (position + 1) = us := by
  rw [← List.head?_drop, ← List.tail_drop, h]
  exact ⟨rfl, rfl⟩

/-- Where no tokens are left, the cursor stands at none. -/
theorem getElem?_of_drop_eq_nil {position : Nat} (h : ts.drop position = []) :
    ts[position]? = none := by
  rw [← List.head?_drop, h]
  rfl

/-- The call of a reader comes to its reading, at whatever place the tokens are the ones that are
left. -/
def Calls (limit : Nat) (ts : List Token) (s : Symbol) (depth : Nat) (us : List Token) : Prop :=
  ∀ position stack, ts.drop position = us →
    ComesTo limit ts ⟨.call s, stack, ⟨position, depth⟩⟩ stack depth (s.read limit depth us)

/-- A chain that is handed an operand comes to its reading. -/
def GoesOn (limit : Nat) (ts : List Token) (c : Chain) (depth : Nat) (tree : Expr)
    (us : List Token) : Prop :=
  ∀ position stack left e, ts.drop position = us → c.extend left e = tree →
    ComesTo limit ts ⟨.answer (.ok e), .chain c left :: stack, ⟨position, depth⟩⟩ stack depth
      (c.more limit depth tree us)

/-- A chain calls for its first operand. -/
theorem calls_chain (c : Chain) {us : List Token} (hfirst : Calls limit ts c.operand depth us)
    (hmore : ∀ e rest, c.operand.read limit depth us = .ok (e, rest) →
      GoesOn limit ts c depth e rest) :
    Calls limit ts c.symbol depth us := by
  intro position stack hus
  rw [c.read_eq]
  have hoperand : ComesTo limit ts ⟨.call c.operand, .chain c none :: stack, ⟨position, depth⟩⟩
      stack depth
      ((c.operand.read limit depth us).bind fun p => c.more limit depth p.1 p.2) :=
    (hfirst position _ hus).bind fun e position' hread =>
      hmore e _ hread position' stack none e rfl rfl
  cases c with
  | disjunction | conjunction => exact hoperand.of_step

/-- A chain goes on with one more operand, or it is complete. -/
theorem goesOn_chain (c : Chain) {tree : Expr} {us : List Token}
    (hnext : ∀ t vs, us = t :: vs → t.kind = c.operator → Calls limit ts c.operand depth vs ∧
      ∀ e rest, c.operand.read limit depth vs = .ok (e, rest) →
        GoesOn limit ts c depth (c.join tree e) rest) :
    GoesOn limit ts c depth tree us := by
  intro position stack left e hus htree
  apply ComesTo.of_step
  rw [step, resume, htree]
  cases us with
  | nil =>
    rw [c.more_nil, getElem?_of_drop_eq_nil hus, if_neg (by simp), ← hus]
    exact comesTo_ok tree ⟨position, depth⟩
  | cons t vs =>
    obtain ⟨ht, hvs⟩ := getElem?_of_drop_eq_cons hus
    rw [c.more_cons, ht, Option.map_some]
    by_cases hoperator : t.kind = c.operator
    · rw [if_pos (congrArg some hoperator), if_pos hoperator]
      obtain ⟨hoperand, hmore⟩ := hnext t vs rfl hoperator
      exact (hoperand _ _ hvs).bind fun r position' hread =>
        hmore r _ hread position' stack (some tree) r rfl rfl
    · rw [if_neg (fun h => hoperator (Option.some.inj h)), if_neg hoperator, ← hus]
      exact comesTo_ok tree ⟨position, depth⟩

/-- A group that is handed what it holds is closed by the next token. -/
theorem comesTo_closeGroup (e : Expr) (opened position depth : Nat) :
    ComesTo limit ts ⟨.answer (.ok e), .group opened :: stack, ⟨position, depth + 1⟩⟩ stack depth
      (closeGroup opened (e, ts.drop position)) := by
  apply ComesTo.of_step
  rw [step, resume]
  cases hus : ts.drop position with
  | nil =>
    rw [getElem?_of_drop_eq_nil hus]
    exact comesTo_error _ _
  | cons t us =>
    obtain ⟨ht, hrest⟩ := getElem?_of_drop_eq_cons hus
    rw [ht, closeGroup]
    by_cases hclosing : t.kind = .closing
    · simp only [if_pos hclosing]
      exact hrest ▸ comesTo_ok e ⟨position + 1, depth⟩
    · simp only [if_neg hclosing]
      exact comesTo_error _ _

/-- A term is read off the next token, or it is a group that the next token opens. -/
theorem calls_term {us : List Token}
    (hgroup : ∀ t vs, us = t :: vs → t.kind = .opening → depth < limit →
      Calls limit ts .disjunction (depth + 1) vs) :
    Calls limit ts .term depth us := by
  intro position stack hus
  apply ComesTo.of_step
  rw [step, enter, readTerm, Symbol.read]
  cases us with
  | nil =>
    rw [getElem?_of_drop_eq_nil hus, term_nil]
    exact comesTo_error _ _
  | cons t vs =>
    obtain ⟨ht, hvs⟩ := getElem?_of_drop_eq_cons hus
    rw [ht, term_cons]
    obtain ⟨kind, opened⟩ := t
    cases kind with
    | literal value => exact hvs ▸ comesTo_ok (.literal value) ⟨position + 1, depth⟩
    | pattern text => exact hvs ▸ comesTo_ok (.pattern text) ⟨position + 1, depth⟩
    | closing | and | or | unrecognized _ => exact comesTo_error _ _
    | opening =>
      simp only [group_eq]
      by_cases hfull : limit ≤ depth
      · rw [if_pos hfull, if_pos hfull]
        exact comesTo_error _ _
      · rw [if_neg hfull, if_neg hfull]
        have hinner := hgroup _ vs rfl rfl (Nat.lt_of_not_le hfull)
        exact (hinner (position + 1) (.group opened :: stack) hvs).bind fun e position' _ =>
          comesTo_closeGroup e opened position' depth

/-- **The machine comes to what the reader of a symbol reads**, whatever the calls that wait. -/
theorem comesTo_read (limit : Nat) (ts : List Token) (s : Symbol) (start : Cursor)
    (stack : List Frame) :
    ComesTo limit ts ⟨.call s, stack, start⟩ stack start.depth
      (s.read limit start.depth (ts.drop start.position)) := by
  have hall := reader_induction limit (D := Calls limit ts .disjunction)
    (C := Calls limit ts .conjunction) (T := Calls limit ts .term)
    (M := GoesOn limit ts .disjunction) (N := GoesOn limit ts .conjunction)
    (fun _ _ => calls_chain .disjunction) (fun _ _ _ => goesOn_chain .disjunction)
    (fun _ _ => calls_chain .conjunction) (fun _ _ _ => goesOn_chain .conjunction)
    (fun _ _ => calls_term) (ts.drop start.position)
  cases s with
  | disjunction => exact hall.1 start.depth start.position stack rfl
  | conjunction => exact hall.2.2.1 start.depth start.position stack rfl
  | term => exact hall.2.2.2.2 start.depth start.position stack rfl

end Readings

end Descent

/-! ### What a reading depends on -/

/-- The operators with which the reader of a symbol would go on. -/
def Symbol.operators : Symbol → List Token.Kind
  | .disjunction => [.or, .and]
  | .conjunction => [.and]
  | .term => []

section Window

variable {s : Symbol} {limit depth : Nat} {e : Expr}

/-- No such operator follows what a reader has taken. -/
theorem Symbol.not_mem_operators_of_read {ts rest : List Token}
    (h : s.read limit depth ts = .ok (e, rest)) : ∀ t ∈ rest.head?, t.kind ∉ s.operators := by
  intro t ht
  cases s with
  | disjunction => simpa [operators] using disjunction_stops limit depth ts e rest h t ht
  | conjunction => simpa [operators] using conjunction_stops limit depth ts e rest h t ht
  | term => simp [operators]

/-- Where no such operator follows, a phrase is all that a reader takes. -/
theorem Symbol.resume_of_not_mem_operators {rest : List Token}
    (h : ∀ t ∈ rest.head?, t.kind ∉ s.operators) : s.resume limit depth e rest = .ok (e, rest) := by
  cases s with
  | disjunction =>
    exact disjuncts_of_head_ne fun t ht hor => h t ht (by simp [operators, hor])
  | conjunction =>
    exact conjuncts_of_head_ne fun t ht hand => h t ht (by simp [operators, hand])
  | term => rfl

/-- The `n` tokens from `position` on and the one behind them, if there is one. Of each only the
kind is seen. -/
def window (ts : List Token) (position n : Nat) : List Token.Kind :=
  ((ts.drop position).take (n + 1)).map Token.kind

/-- Through the window one sees the tokens themselves. -/
theorem map_take_of_window_eq {ts ts' : List Token} {position position' n : Nat}
    (h : window ts' position' n = window ts position n) :
    ((ts'.drop position').take n).map Token.kind = ((ts.drop position).take n).map Token.kind := by
  have htake := congrArg (List.take n) h
  rwa [window, window, ← List.map_take, ← List.map_take, List.take_take, List.take_take,
    Nat.min_eq_left (Nat.le_succ n)] at htake

/-- Through the window one sees what stands behind the tokens. -/
theorem map_head?_of_window_eq {ts ts' : List Token} {position position' n : Nat}
    (h : window ts' position' n = window ts position n) :
    ((ts'.drop position').drop n).head?.map Token.kind =
      ((ts.drop position).drop n).head?.map Token.kind := by
  have hlast := congrArg (fun kinds => kinds[n]?) h
  simpa only [window, List.getElem?_map, List.getElem?_take, if_pos (Nat.lt_succ_self n),
    List.head?_drop] using hlast

/-- **A reading that succeeds depends on no more than its window**: what it has taken is a phrase,
and the token behind that is no operator that goes on with it. -/
theorem read_of_window_eq {ts ts' : List Token} {position position' n : Nat}
    (hdepth : depth ≤ limit)
    (h : s.read limit depth (ts.drop position) = .ok (e, (ts.drop position).drop n))
    (hwindow : window ts' position' n = window ts position n) :
    s.read limit depth (ts'.drop position') = .ok (e, (ts'.drop position').drop n) := by
  obtain ⟨m, us, hts, hm, hphrase⟩ := derives_of_read h
  have hus : (ts.drop position).take n = us :=
    List.append_cancel_right ((List.take_append_drop n _).trans hts)
  have hphrase' : Derives s m e ((ts'.drop position').take n) :=
    hphrase.of_map_kind_eq (hus ▸ map_take_of_window_eq hwindow)
  have hstops : ∀ t ∈ ((ts'.drop position').drop n).head?, t.kind ∉ s.operators := by
    intro t ht
    have hkind := map_head?_of_window_eq hwindow
    rw [Option.mem_def.mp ht, Option.map_some] at hkind
    obtain ⟨t', ht', hsame⟩ := Option.map_eq_some_iff.mp hkind.symm
    exact hsame ▸ Symbol.not_mem_operators_of_read h t' ht'
  have hand : s = .disjunction → ∀ t ∈ ((ts'.drop position').drop n).head?, t.kind ≠ .and := by
    rintro rfl t ht hand
    exact hstops t ht (by simp [Symbol.operators, hand])
  calc s.read limit depth (ts'.drop position')
      = s.read limit depth ((ts'.drop position').take n ++ (ts'.drop position').drop n) := by
        rw [List.take_append_drop]
    _ = s.resume limit depth e ((ts'.drop position').drop n) := by
        rw [read_of_derives hphrase' hdepth _ hand, if_pos (by omega)]
    _ = .ok (e, (ts'.drop position').drop n) := Symbol.resume_of_not_mem_operators hstops

end Window

/-! ### Whole calls -/

namespace Descent

/-- A reader that succeeds leaves fewer tokens than there were. -/
theorem length_lt_of_read {s : Symbol} {limit depth : Nat} {e : Expr} {ts rest : List Token}
    (h : s.read limit depth ts = .ok (e, rest)) : rest.length < ts.length := by
  obtain ⟨n, us, rfl, -, hphrase⟩ := derives_of_read h
  have hpos := List.length_pos_iff.mpr hphrase.ne_nil
  rw [List.length_append]
  omega

section Calls

variable {limit : Nat} {ts : List Token} {s : Symbol} {start : Cursor}

/-- A call begins within the bounds. -/
theorem disciplined_entry (s : Symbol) (hposition : start.position ≤ ts.length)
    (hdepth : start.depth ≤ limit) :
    Disciplined limit ts.length start.depth (entry s start) :=
  ⟨hposition, hdepth, Nat.le_refl _⟩

/-- **A call comes to an end**, with what the reader of the symbol reads. -/
theorem exists_run_eq_ended (hposition : start.position ≤ ts.length)
    (hdepth : start.depth ≤ limit) :
    ∃ steps r stop, (∀ n, steps ≤ n → run limit ts n (entry s start) = ended r stop) ∧
      s.read limit start.depth (ts.drop start.position) =
        r.map (fun e => (e, ts.drop stop.position)) ∧
      stop.position ≤ ts.length ∧ ∀ e, r = .ok e → stop.depth = start.depth := by
  obtain ⟨steps, r, stop, hrun, hread, hsame⟩ := comesTo_read limit ts s start []
  refine ⟨steps, r, stop, fun n hn => ?_, hread, ?_, hsame⟩
  · obtain ⟨m, rfl⟩ := Nat.exists_eq_add_of_le' hn
    rw [run_add]
    exact (congrArg (run limit ts m) hrun).trans (run_ended m r stop)
  · have hstop := (disciplined_entry s hposition hdepth).run steps
    exact (hrun ▸ hstop).position_le

/-- A call whose reading takes the next `taken` tokens stops behind them. -/
theorem exists_run_eq_ended_of_read {e : Expr} {taken : Nat}
    (hposition : start.position + taken ≤ ts.length) (hdepth : start.depth ≤ limit)
    (h : s.read limit start.depth (ts.drop start.position) =
      .ok (e, (ts.drop start.position).drop taken)) :
    ∃ steps, ∀ n, steps ≤ n →
      run limit ts n (entry s start) =
        ended (.ok e) ⟨start.position + taken, start.depth⟩ := by
  obtain ⟨steps, r, ⟨position, depth⟩, hrun, hread, hstop, hsame⟩ :=
    exists_run_eq_ended (s := s) (Nat.le_of_add_right_le hposition) hdepth
  rw [h] at hread
  cases r with
  | error e' => cases hread
  | ok e' =>
    rw [Except.map, Except.ok.injEq, Prod.mk.injEq, List.drop_drop] at hread
    obtain ⟨rfl, hdrop⟩ := hread
    have hlength := congrArg List.length hdrop
    simp only [List.length_drop] at hlength hstop
    have hplace : position = start.position + taken := by omega
    exact ⟨steps, by rw [← hplace, ← hsame e rfl]; exact hrun⟩

end Calls

/-- Tokens that look the same are as many. -/
theorem add_le_length_of_window_eq {ts ts' : List Token} {position position' n : Nat} (hn : 0 < n)
    (h : window ts' position' n = window ts position n) (hlength : position + n ≤ ts.length) :
    position' + n ≤ ts'.length := by
  have hsame := congrArg List.length h
  simp only [window, List.length_map, List.length_take, List.length_drop] at hsame
  omega

/-- **A call keeps the cursor and the count in order.** From wherever the cursor stands in the
tokens, with a count within the limit, the reader of a symbol comes to an end, with the result of
the reading. Until then the count is never below what it was at first and never above the limit,
and the groups that are active on top of it are within the limit as well. If the result is a tree,
the cursor has moved on and stands at the next token that is left, or at the end; the count is what
it was; and the same phrase is read, with the same result, at any place of any tokens that look
the same as far as one token behind it. -/
theorem run_of_call (limit : Nat) (ts : List Token) (s : Symbol) (start : Cursor)
    (hposition : start.position ≤ ts.length) (hdepth : start.depth ≤ limit) :
    ∃ steps r stop, (∀ n, steps ≤ n → run limit ts n (entry s start) = ended r stop) ∧
      s.read limit start.depth (ts.drop start.position) =
        r.map (fun e => (e, ts.drop stop.position)) ∧
      (∀ n st, run limit ts n (entry s start) = st →
        start.depth ≤ st.cursor.depth ∧ st.cursor.depth ≤ limit ∧
          start.depth + activeGroups st.stack ≤ limit) ∧
      ∀ e, r = .ok e →
        start.position < stop.position ∧ stop.position ≤ ts.length ∧ stop.depth = start.depth ∧
          ∀ taken, start.position + taken = stop.position → ∀ ts' position',
            window ts' position' taken = window ts start.position taken →
            ∃ steps', ∀ n, steps' ≤ n →
              run limit ts' n (entry s ⟨position', start.depth⟩) =
                ended (.ok e) ⟨position' + taken, start.depth⟩ := by
  obtain ⟨steps, r, stop, hrun, hread, hstop, hsame⟩ :=
    exists_run_eq_ended (s := s) hposition hdepth
  refine ⟨steps, r, stop, hrun, hread, fun n st hst => ?_, fun e he => ?_⟩
  · obtain ⟨-, hlimit, hactive⟩ := hst ▸ (disciplined_entry s hposition hdepth).run n
    exact ⟨Nat.le_trans (Nat.le_add_right _ _) hactive, hlimit, Nat.le_trans hactive hlimit⟩
  · subst he
    have hmoved : start.position < stop.position := by
      have hlt := length_lt_of_read hread
      rw [List.length_drop, List.length_drop] at hlt
      omega
    refine ⟨hmoved, hstop, hsame e rfl, fun taken htaken ts' position' hwindow => ?_⟩
    have htake : s.read limit start.depth (ts.drop start.position) =
        .ok (e, (ts.drop start.position).drop taken) := by
      rw [List.drop_drop, htaken]
      exact hread
    have hplace : position' + taken ≤ ts'.length :=
      add_le_length_of_window_eq (by omega) hwindow (by omega)
    exact exists_run_eq_ended_of_read hplace hdepth (read_of_window_eq hdepth htake hwindow)

/-- The tokens of `(a || (b) && c)`. -/
def chainInGroup : List Token :=
  [⟨.opening, 0⟩, ⟨.pattern "a", 1⟩, ⟨.or, 3⟩, ⟨.opening, 6⟩, ⟨.pattern "b", 7⟩, ⟨.closing, 8⟩,
    ⟨.and, 10⟩, ⟨.pattern "c", 13⟩, ⟨.closing, 15⟩]

/-- The tokens of `(b) && c) $`. -/
def chainBeforeCharacter : List Token :=
  [⟨.opening, 0⟩, ⟨.pattern "b", 1⟩, ⟨.closing, 2⟩, ⟨.and, 4⟩, ⟨.pattern "c", 7⟩, ⟨.closing, 8⟩,
    ⟨.unrecognized '$', 10⟩]

/-- In `(a || (b) && c)` the conjunction behind `||` is read inside one group, and one more may be
opened. It ends at the last parenthesis, and it is read in the same way at the front of
`(b) && c) $`. -/
theorem run_of_call_chainInGroup :
    3 ≤ chainInGroup.length ∧ 1 ≤ 2 ∧
      (∃ steps, ∀ n, steps ≤ n →
        run 2 chainInGroup n (entry .conjunction ⟨3, 1⟩) =
          ended (.ok (.and (.pattern "b") (.pattern "c"))) ⟨8, 1⟩) ∧
      (∀ n st, run 2 chainInGroup n (entry .conjunction ⟨3, 1⟩) = st →
        1 ≤ st.cursor.depth ∧ st.cursor.depth ≤ 2 ∧ 1 + activeGroups st.stack ≤ 2) ∧
      ∃ steps, ∀ n, steps ≤ n →
        run 2 chainBeforeCharacter n (entry .conjunction ⟨0, 1⟩) =
          ended (.ok (.and (.pattern "b") (.pattern "c"))) ⟨5, 1⟩ := by
  obtain ⟨steps, r, ⟨position, depth⟩, hrun, hread, hbounds, hok⟩ :=
    run_of_call 2 chainInGroup .conjunction ⟨3, 1⟩ (by decide) (by decide)
  have hgroup : Derives .term 1 (.pattern "b")
      [⟨.opening, 6⟩, ⟨.pattern "b", 7⟩, ⟨.closing, 8⟩] :=
    .group rfl (Derives.disjunction_of_term (.pattern rfl)) rfl
  have hphrase := Derives.and (t := ⟨.and, 10⟩) (.ofTerm hgroup) rfl
    (.pattern (t := ⟨.pattern "c", 13⟩) rfl)
  have hreading : Symbol.conjunction.read 2 1 (chainInGroup.drop 3) =
      .ok (.and (.pattern "b") (.pattern "c"), [⟨.closing, 15⟩]) :=
    (read_of_derives hphrase (by decide) [⟨.closing, 15⟩] (by decide)).trans
      (conjuncts_of_head_ne (by decide))
  rw [hreading] at hread
  cases r with
  | error e => cases hread
  | ok e =>
    rw [Except.map, Except.ok.injEq, Prod.mk.injEq] at hread
    obtain ⟨rfl, hrest⟩ := hread
    obtain ⟨-, hposition, hdepth, hsame⟩ := hok _ rfl
    have hplace : position = 8 := by
      have hlength := congrArg List.length hrest
      simp only [List.length_drop] at hlength hposition
      simp [chainInGroup] at hlength hposition
      omega
    subst hplace hdepth
    exact ⟨by decide, by decide, ⟨steps, hrun⟩, hbounds, hsame 5 rfl chainBeforeCharacter 0 rfl⟩

end Descent

end AccessRules.Expr
