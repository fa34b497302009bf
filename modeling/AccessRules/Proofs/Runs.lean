import AccessRules.Proofs.Composition
import AccessRules.Proofs.Positions
import Mathlib.Data.List.SplitBy

/-!
# The normal spelling run by run

A text is its maximal runs of equal characters, one after the other. The normal spelling gives
every run of an operator character the length two and keeps all other runs, and that is all there
is to it: which texts are spelled normally, which texts are spelled alike and how the spelling of
a concatenation comes about can be read off the runs.

## Main definitions

* `Spelling.runs`: the maximal runs of a text
* `Spelling.spellRun`: the normal spelling of one run
* `Spelling.Doubled`, `Spelling.Respelled`, `Spelling.Meets`: texts with operators of length two,
  runs that differ in length only, and texts that adjoin within a run

## Main statements

* `runs_induction`: induction along the runs of a text
* `runs_normalizeChars`: the runs of the normal spelling are the runs of the text, each spelled
  normally
* `normalize_run_by_run`: what follows for texts, pairs of texts and concatenations

## Implementation notes

The spelling itself is a pass over characters, and a fact about it that is proved along characters
has to speak of texts that begin in the middle of a run. So the pass is followed once along the
runs, in `runs_normalizeChars`, and everything else compares lists of runs.
-/

namespace AccessRules.Spelling

/-- The maximal runs of equal characters, in order. -/
def runs (cs : List Char) : List (List Char) :=
  cs.splitBy (· == ·)

/-- The normal spelling of one run. -/
def spellRun : List Char → List Char
  | [] => []
  | c :: cs => if isOperatorChar c then [c, c] else c :: cs

/-- Every maximal run of an operator character has the length two. -/
def Doubled (cs : List Char) : Prop :=
  ∀ run ∈ runs cs, ∀ c ∈ run, isOperatorChar c = true → run.length = 2

/-- Two runs are one and the same, or they differ in length only and are runs of an operator
character. -/
def Respelled (run run' : List Char) : Prop :=
  run = run' ∨ ∃ c m n, isOperatorChar c = true ∧
    run = List.replicate (m + 1) c ∧ run' = List.replicate (n + 1) c

/-- The first text ends and the second begins with one and the same operator character. -/
def Meets (xs ys : List Char) : Prop :=
  ∃ c ∈ xs.getLast?, isOperatorChar c = true ∧ ys.head? = some c

/-! ### Runs -/

@[simp] theorem runs_nil : runs [] = [] := rfl

/-- A run that does not go on stands for itself. -/
theorem runs_replicate_append {c : Char} {cs : List Char} (h : cs.head? ≠ some c) (n : Nat) :
    runs (List.replicate (n + 1) c ++ cs) = List.replicate (n + 1) c :: runs cs := by
  have hchain : (List.replicate (n + 1) c).IsChain fun x y => (x == y) = true :=
    List.isChain_replicate_of_rel _ (beq_self_eq_true c)
  rw [runs, List.splitBy_append, List.splitBy_of_isChain (by simp) hchain]
  · rfl
  · intro x hx y hy
    obtain rfl : c = x := by simpa [List.getLast?_replicate] using hx
    rw [beq_eq_false_iff_ne]
    rintro rfl
    exact h hy

/-- A text that is not empty begins with a run. -/
theorem exists_eq_replicate_append (c : Char) (cs : List Char) :
    ∃ n rest, c :: cs = List.replicate (n + 1) c ++ rest ∧ rest.head? ≠ some c := by
  induction cs with
  | nil => exact ⟨0, [], rfl, by simp⟩
  | cons d cs ih =>
    by_cases hd : d = c
    · obtain ⟨n, rest, heq, hrest⟩ := ih
      refine ⟨n + 1, rest, ?_, hrest⟩
      rw [hd, heq, List.replicate_succ (n := n + 1), List.cons_append]
    · exact ⟨0, d :: cs, rfl, by simpa using hd⟩

/-- **Induction along the runs of a text.** -/
theorem runs_induction {motive : List Char → Prop} (nil : motive [])
    (run : ∀ c n cs, cs.head? ≠ some c → motive cs → motive (List.replicate (n + 1) c ++ cs))
    (cs : List Char) : motive cs := by
  -- What is left behind the first run is shorter, but it is not the tail of the text.
  induction hlength : cs.length using Nat.strong_induction_on generalizing cs with
  | _ length ih =>
    cases cs with
    | nil => exact nil
    | cons c cs =>
      obtain ⟨n, rest, heq, hrest⟩ := exists_eq_replicate_append c cs
      rw [heq] at hlength ⊢
      refine run c n rest hrest (ih rest.length ?_ rest rfl)
      rw [List.length_append, List.length_replicate] at hlength
      omega

theorem exists_of_mem_runs {run cs : List Char} (h : run ∈ runs cs) :
    ∃ c n, run = List.replicate (n + 1) c := by
  induction cs using runs_induction with
  | nil => simp at h
  | run c n cs hcs ih =>
    rw [runs_replicate_append hcs] at h
    rcases List.mem_cons.mp h with rfl | h
    · exact ⟨c, n, rfl⟩
    · exact ih h

/-- A text is determined by its runs. -/
theorem runs_inj {xs ys : List Char} : runs xs = runs ys ↔ xs = ys := by
  refine ⟨fun h => ?_, congrArg runs⟩
  have hflatten := congrArg List.flatten h
  rwa [runs, runs, List.flatten_splitBy, List.flatten_splitBy] at hflatten

/-! ### The spelling of runs -/

theorem spellRun_replicate (c : Char) (n : Nat) :
    spellRun (List.replicate (n + 1) c) =
      List.replicate ((if isOperatorChar c then 1 else n) + 1) c := by
  rw [List.replicate_succ, spellRun]
  split
  · rfl
  · rw [List.replicate_succ]

/-- The spelling of a run does not depend on what follows it. -/
theorem normalizeChars_replicate_append {c : Char} {cs : List Char} (h : cs.head? ≠ some c)
    (n : Nat) :
    normalizeChars (List.replicate (n + 1) c ++ cs) =
      spellRun (List.replicate (n + 1) c) ++ normalizeChars cs := by
  have hfresh : Fresh (some c) cs := by
    rintro d hd - hcd
    exact h (hcd ▸ hd)
  rw [spellRun_replicate]
  cases hc : isOperatorChar c with
  | true =>
    rw [normalizeChars, normalizeFrom_run hc (by simp), hfresh.normalizeFrom_eq]
    rfl
  | false =>
    have hrun : ∀ d ∈ List.replicate (n + 1) c, isOperatorChar d = false := by
      intro d hd
      rw [List.eq_of_mem_replicate hd, hc]
    rw [normalizeChars, normalizeFrom_append, normalizeFrom_of_forall hrun, List.getLast?_replicate]
    exact congrArg _ hfresh.normalizeFrom_eq

/-- **The runs of the normal spelling are the runs of the text, each spelled normally.** -/
theorem runs_normalizeChars (cs : List Char) :
    runs (normalizeChars cs) = (runs cs).map spellRun := by
  induction cs using runs_induction with
  | nil => rfl
  | run c n cs hcs ih =>
    -- The spelling of the rest begins as the rest does, so the first run does not go on there.
    have hfresh : Fresh none cs := fun _ _ _ => (Option.some_ne_none _).symm
    have hhead : (normalizeChars cs).head? ≠ some c := by
      rwa [normalizeChars, hfresh.head?_normalizeFrom]
    rw [normalizeChars_replicate_append hcs, runs_replicate_append hcs, List.map_cons, ← ih,
      spellRun_replicate, runs_replicate_append hhead]

theorem spellRun_spellRun (run : List Char) : spellRun (spellRun run) = spellRun run := by
  cases run with
  | nil => rfl
  | cons c cs =>
    rw [spellRun]
    split
    · next hc => rw [spellRun, if_pos hc]
    · next hc => rw [spellRun, if_neg hc]

theorem spellRun_eq_self_iff {run : List Char} (h : ∃ c n, run = List.replicate (n + 1) c) :
    spellRun run = run ↔ ∀ c ∈ run, isOperatorChar c = true → run.length = 2 := by
  obtain ⟨c, n, rfl⟩ := h
  rw [spellRun_replicate]
  constructor
  · intro heq d hd hoperator
    rw [List.eq_of_mem_replicate hd] at hoperator
    rw [← heq, List.length_replicate, if_pos hoperator]
  · intro hlength
    split
    · next hc =>
      have htwo := hlength c (by simp) hc
      rw [List.length_replicate] at htwo
      rw [htwo]
    · rfl

theorem spellRun_eq_iff_respelled {run run' : List Char}
    (h : ∃ c n, run = List.replicate (n + 1) c) (h' : ∃ c n, run' = List.replicate (n + 1) c) :
    spellRun run = spellRun run' ↔ Respelled run run' := by
  obtain ⟨c, m, rfl⟩ := h
  obtain ⟨d, n, rfl⟩ := h'
  constructor
  · intro heq
    rw [spellRun_replicate, spellRun_replicate] at heq
    obtain ⟨hlength, hchar⟩ := List.replicate_inj.mp heq
    obtain rfl : c = d := by simpa using hchar
    cases hc : isOperatorChar c with
    | true => exact .inr ⟨c, m, n, hc, rfl, rfl⟩
    | false =>
      obtain rfl : m = n := by simpa [hc] using hlength
      exact .inl rfl
  · rintro (heq | ⟨x, k, l, hx, hk, hl⟩)
    · rw [heq]
    · rw [hk, hl, spellRun_replicate, spellRun_replicate, if_pos hx, if_pos hx]

/-! ### Which texts are spelled normally, and which are spelled alike -/

theorem normalizeChars_normalizeChars (cs : List Char) :
    normalizeChars (normalizeChars cs) = normalizeChars cs := by
  rw [← runs_inj, runs_normalizeChars, runs_normalizeChars, List.map_map]
  exact List.map_congr_left fun run _ => spellRun_spellRun run

/-- **The texts that are spelled normally are those with operators of length two.** -/
theorem normalizeChars_eq_self_iff (cs : List Char) : normalizeChars cs = cs ↔ Doubled cs := by
  have hself := List.map_inj_left (l := runs cs) (f := spellRun) (g := id)
  rw [List.map_id] at hself
  rw [← runs_inj, runs_normalizeChars, hself]
  exact forall₂_congr fun run hrun => spellRun_eq_self_iff (exists_of_mem_runs hrun)

/-- **Texts are spelled alike exactly if they differ in the lengths of operators only.** -/
theorem normalizeChars_eq_iff_forall₂_respelled (xs ys : List Char) :
    normalizeChars xs = normalizeChars ys ↔ List.Forall₂ Respelled (runs xs) (runs ys) := by
  rw [← runs_inj, runs_normalizeChars, runs_normalizeChars, ← List.forall₂_eq_eq_eq,
    List.forall₂_map_left_iff, List.forall₂_map_right_iff, List.forall₂_iff_zip,
    List.forall₂_iff_zip]
  refine and_congr_right fun _ => forall₂_congr fun run run' => imp_congr_right fun hmem => ?_
  obtain ⟨hrun, hrun'⟩ := List.of_mem_zip hmem
  exact spellRun_eq_iff_respelled (exists_of_mem_runs hrun) (exists_of_mem_runs hrun')

/-! ### Concatenations -/

theorem normalizeChars_append_of_meets {xs ys : List Char} (h : Meets xs ys) :
    normalizeChars (xs ++ ys) = normalizeChars xs ++ (normalizeChars ys).drop 2 := by
  obtain ⟨c, hlast, hc, hhead⟩ := h
  obtain ⟨cs, rfl⟩ := List.head?_eq_some_iff.mp hhead
  rw [normalizeChars, normalizeFrom_append, Option.mem_def.mp hlast, Option.some_or,
    normalizeFrom, if_pos hc, if_pos rfl, normalizeChars, normalizeChars, normalizeFrom, if_pos hc,
    if_neg (Option.some_ne_none c).symm]
  rfl

theorem normalizeChars_append_of_not_meets {xs ys : List Char} (h : ¬ Meets xs ys) :
    normalizeChars (xs ++ ys) = normalizeChars xs ++ normalizeChars ys := by
  have hfresh : Fresh xs.getLast? ys := by
    intro c hc hoperator hlast
    exact h ⟨c, hlast, hoperator, hc⟩
  rw [normalizeChars, normalizeFrom_append, Option.or_none, hfresh.normalizeFrom_eq]
  rfl

/-! ### Texts -/

theorem normalize_inj {x y : String} :
    normalize x = normalize y ↔ normalizeChars x.toList = normalizeChars y.toList := by
  rw [← String.toList_inj, toList_normalize, toList_normalize]

theorem normalize_eq_self_iff (x : String) : normalize x = x ↔ Doubled x.toList := by
  rw [← String.toList_inj, toList_normalize, normalizeChars_eq_self_iff]

theorem normalize_normalize (x : String) : normalize (normalize x) = normalize x := by
  rw [normalize_inj, toList_normalize, normalizeChars_normalizeChars]

/-- **The normal spelling gives every operator the length two and changes nothing else.** A second
time it changes nothing. The texts that it leaves alone are those in which every maximal run of an
operator character has the length two, and these are also the texts that it comes to. Two texts
are spelled alike exactly if they differ in the lengths of such runs only. A concatenation is
spelled part by part, but if the parts adjoin within a run, the run is spelled with the first of
them. No operator character of the spelling is left unrecognized. -/
theorem normalize_run_by_run (x y : String) :
    normalize (normalize x) = normalize x ∧
      (normalize x = x ↔ Doubled x.toList) ∧
      ((∃ raw, normalize raw = x) ↔ Doubled x.toList) ∧
      (normalize x = normalize y ↔ List.Forall₂ Respelled (runs x.toList) (runs y.toList)) ∧
      (Meets x.toList y.toList →
        (normalize (x ++ y)).toList = (normalize x).toList ++ (normalize y).toList.drop 2) ∧
      (¬ Meets x.toList y.toList → normalize (x ++ y) = normalize x ++ normalize y) ∧
      ∀ t ∈ Token.scan (normalize x),
        t.kind ≠ .unrecognized '|' ∧ t.kind ≠ .unrecognized '&' := by
  refine ⟨normalize_normalize x, normalize_eq_self_iff x, ?_, ?_, fun hmeets => ?_,
    fun hmeets => ?_, fun t ht => ?_⟩
  · rw [← normalize_eq_self_iff]
    constructor
    · rintro ⟨raw, rfl⟩
      exact normalize_normalize raw
    · intro hself
      exact ⟨x, hself⟩
  · rw [normalize_inj, normalizeChars_eq_iff_forall₂_respelled]
  · rw [toList_normalize, toList_normalize, toList_normalize, String.toList_append,
      normalizeChars_append_of_meets hmeets]
  · rw [← String.toList_inj, String.toList_append, toList_normalize, toList_normalize,
      toList_normalize, String.toList_append, normalizeChars_append_of_not_meets hmeets]
  · have hpaired : Paired (normalize x).toList := by
      rw [toList_normalize]
      exact paired_normalizeFrom none _
    have hoperator : ∀ c, t.kind = .unrecognized c → isOperatorChar c = false :=
      fun _ hc => Token.not_isOperatorChar_of_mem_scanFrom hpaired ht hc
    constructor
    · intro hbar
      exact absurd (hoperator '|' hbar) (by decide)
    · intro hampersand
      exact absurd (hoperator '&' hampersand) (by decide)

/-- `a|` and `||b` adjoin within a run of three. It is spelled with `a`, and only `b` is left of
the second text. -/
theorem normalize_run_by_run_adjoining :
    Meets "a|".toList "||b".toList ∧
      (normalize ("a|" ++ "||b")).toList = (normalize "a|").toList ++ ['b'] := by
  have hmeets : Meets "a|".toList "||b".toList := ⟨'|', by decide, rfl, rfl⟩
  have hrest : (normalize "||b").toList.drop 2 = ['b'] := by decide +kernel
  obtain ⟨-, -, -, -, happend, -⟩ := normalize_run_by_run "a|" "||b"
  exact ⟨hmeets, hrest ▸ happend hmeets⟩

end AccessRules.Spelling
