import AccessRules.Builtin.Regex
import AccessRules.GlobCache
import Mathlib.Data.List.DropRight
import Mathlib.Data.List.Nodup

/-!
# Which compiled globs are kept

What a cache keeps can be read off its history. A call leaves a trace there only if it inserts a
glob or clears the cache, and the cache is the window on that trace that ends now: the entries
inserted last, as many as there is room for, and none from before the cache was cleared.

## Main definitions

* `GlobCache.Call`, `GlobCache.run`: what a cache is asked to do, and the cache afterwards
* `GlobCache.Event`, `GlobCache.history`: the insertions and clearings that calls come to
* `GlobCache.Recent`: a pattern was inserted not too long ago
* `GlobCache.RunsDry`: making room comes to the end of the queue before there is room

## Main statements

* `getOrCompile_outcome`: all that asking for a pattern can come to
* `Window.step`, `window_run`: the cache is the window on its history
* `recent_iff`: the entries in the window are the recent ones
* `keeps_last_inserted`: the cache is a first-in-first-out window

## Implementation notes

Table and queue are separate structures, and only together with the bound on their length do they
stay in step: one dropped pattern then makes room for one more. So the window is the invariant,
and it holds table, queue and bound in one. That the patterns in it are distinct comes from what
an insertion is, as nothing is inserted that is still kept.
-/

namespace AccessRules.GlobCache

/-! ### The end of a list -/

/-- Of fewer elements than there is room for, all are the last; of more, one gives way. -/
theorem rtake_of_rtake_succ {α : Type} (l : List α) (n : Nat) :
    l.rtake n = if n + 1 ≤ (l.rtake (n + 1)).length then (l.rtake (n + 1)).tail
      else l.rtake (n + 1) := by
  simp only [List.rtake, List.length_drop, List.tail_drop]
  split
  · congr 1
    omega
  · congr 1
    omega

/-- The last `n` elements are those behind which there are fewer than `n`. -/
theorem mem_rtake_iff {α : Type} {l : List α} {n : Nat} {x : α} :
    x ∈ l.rtake n ↔ ∃ xs ys, l = xs ++ x :: ys ∧ ys.length < n := by
  constructor
  · intro hx
    obtain ⟨xs, ys, hsplit⟩ := List.append_of_mem hx
    have hlength : (l.rtake n).length ≤ n := by
      rw [List.rtake, List.length_drop]
      omega
    rw [hsplit, List.length_append, List.length_cons] at hlength
    refine ⟨l.rdrop n ++ xs, ys, ?_, by omega⟩
    rw [List.append_assoc, ← hsplit]
    exact (List.take_append_drop _ l).symm
  · rintro ⟨xs, ys, rfl, hys⟩
    rw [List.rtake, List.drop_append_of_le_length (by simp; omega)]
    simp

/-! ### Calls and what they leave in the history -/

/-- What a cache is asked to do. -/
inductive Call where
  /-- Hand out the glob of a pattern. -/
  | get (pattern : String)
  /-- Forget every glob. -/
  | clear

section

variable [RegexLibrary]

/-- A pattern and the compiled glob that was inserted for it. -/
@[ext] structure Entry where
  pattern : String
  compiled : CompiledGlob

/-- What is left of a call in the history. Of hits and failures nothing is left. -/
inductive Event where
  /-- A pattern that was not kept has been compiled and inserted. -/
  | inserted (entry : Entry)
  /-- The cache has been cleared. -/
  | cleared

/-- The entry of a kept glob. -/
def entryOf (kept : KeptGlob) : Entry :=
  ⟨kept.pattern, kept.compiled⟩

/-- The cache after a call. -/
def step (cache : GlobCache) : Call → GlobCache
  | .get pattern => (cache.getOrCompile pattern).2
  | .clear => cache.clear

/-- The cache after some calls. -/
def run (cache : GlobCache) (calls : List Call) : GlobCache :=
  calls.foldl step cache

/-- What there is to see of some calls, in order, when each is looked at with the cache that it is
made to. -/
def observe {α : Type} (see : GlobCache → Call → Option α) (cache : GlobCache) :
    List Call → List α
  | [] => []
  | call :: calls => (see cache call).toList ++ observe see (cache.step call) calls

/-- The event that a call is. An insertion is a call that compiles a pattern which is not kept, in
a cache that has capacity. -/
def event? (cache : GlobCache) : Call → Option Event
  | .clear => some .cleared
  | .get pattern =>
    if cache.capacity = 0 ∨ (cache.find? pattern).isSome then none
    else
      match (cache.getOrCompile pattern).1 with
      | .ok compiled => some (.inserted ⟨pattern, compiled⟩)
      | .error _ => none

/-- The compiled glob that a call hands out, if it hands out one. -/
def handed? (cache : GlobCache) : Call → Option CompiledGlob
  | .clear => none
  | .get pattern => (cache.getOrCompile pattern).1.toOption

/-- The events of some calls, oldest first. -/
def history (cache : GlobCache) (calls : List Call) : List Event :=
  observe event? cache calls

/-- The compiled globs that some calls hand out. -/
def handedOut (cache : GlobCache) (calls : List Call) : List CompiledGlob :=
  observe handed? cache calls

/-- The entries that were inserted since the cache was last cleared, oldest first. -/
def sinceCleared (events : List Event) : List Entry :=
  events.foldl (fun entries event =>
    match event with
    | .inserted entry => entries ++ [entry]
    | .cleared => []) []

/-- The glob with which a pattern was inserted last. -/
def lastInserted? (entries : List Entry) (pattern : String) : Option CompiledGlob :=
  (entries.reverse.find? fun entry => entry.pattern == pattern).map Entry.compiled

/-- The pattern was inserted with this glob, and since then it was not inserted again, the cache
was not cleared, and fewer than `capacity` entries were inserted. -/
def Recent (capacity : Nat) (events : List Event) (pattern : String) (compiled : CompiledGlob) :
    Prop :=
  ∃ (before : List Event) (later : List Entry),
    events = before ++ .inserted ⟨pattern, compiled⟩ :: later.map .inserted ∧
    (∀ entry ∈ later, entry.pattern ≠ pattern) ∧ later.length < capacity

/-- There is no room, and none is made: the end of the queue is reached before that. -/
def RunsDry (capacity : Nat) : List String → List KeptGlob → Prop
  | [], table => capacity ≤ table.length
  | oldest :: queue, table =>
    capacity ≤ table.length ∧ RunsDry capacity queue (without oldest table)

/-! ### One step, and all of them -/

/-- All that asking for a pattern can come to. -/
inductive Outcome (cache : GlobCache) (pattern : String) :
    Except RegexError CompiledGlob × GlobCache → Prop where
  /-- The pattern is kept. -/
  | hit {kept : KeptGlob} (hcapacity : cache.capacity ≠ 0) (h : cache.find? pattern = some kept) :
      Outcome cache pattern (.ok kept.compiled, cache)
  /-- The pattern has no glob. -/
  | failed {e : RegexError} (h : Glob.compile pattern = .error e) :
      Outcome cache pattern (.error e, cache)
  /-- Nothing is ever kept, so the pattern is compiled. -/
  | unkept {glob : Glob} (hcapacity : cache.capacity = 0) (h : Glob.compile pattern = .ok glob) :
      Outcome cache pattern
        (.ok ⟨cache.nextSerial, glob⟩, { cache with nextSerial := cache.nextSerial + 1 })
  /-- The pattern is not kept. It is compiled, and kept from now on. -/
  | inserted {glob : Glob} (hcapacity : cache.capacity ≠ 0) (hfind : cache.find? pattern = none)
      (h : Glob.compile pattern = .ok glob) :
      Outcome cache pattern (.ok ⟨cache.nextSerial, glob⟩,
        { cache with nextSerial := cache.nextSerial + 1 }.keep
          ⟨pattern, ⟨cache.nextSerial, glob⟩, h⟩)

/-- **All that asking for a pattern comes to** is one of the outcomes. -/
theorem getOrCompile_outcome (cache : GlobCache) (pattern : String) :
    Outcome cache pattern (cache.getOrCompile pattern) := by
  rw [getOrCompile]
  by_cases hcapacity : cache.capacity = 0
  · rw [if_pos hcapacity]
    split
    · contradiction
    · split
      · next h => exact .failed h
      · next h =>
        simp only [if_pos hcapacity]
        exact .unkept hcapacity h
  · rw [if_neg hcapacity]
    split
    · next h => exact .hit hcapacity h
    · next hfind =>
      split
      · next h => exact .failed h
      · next h =>
        simp only [if_neg hcapacity]
        exact .inserted hcapacity hfind h

/-- A pattern that has no glob leaves the cache as it is. -/
theorem getOrCompile_of_error {cache : GlobCache} {pattern : String} {e : RegexError}
    (h : Glob.compile pattern = .error e) : cache.getOrCompile pattern = (.error e, cache) := by
  have houtcome := getOrCompile_outcome cache pattern
  generalize cache.getOrCompile pattern = result at houtcome ⊢
  cases houtcome with
  | hit _ hfind => simp [compile_of_find? hfind] at h
  | failed h' =>
    cases h.symm.trans h'
    rfl
  | unkept _ h' | inserted _ _ h' => simp [h] at h'

/-- A kept pattern is handed out and leaves the cache as it is. -/
theorem getOrCompile_of_find? {cache : GlobCache} {pattern : String} {kept : KeptGlob}
    (hcapacity : cache.capacity ≠ 0) (h : cache.find? pattern = some kept) :
    cache.getOrCompile pattern = (.ok kept.compiled, cache) := by
  have houtcome := getOrCompile_outcome cache pattern
  generalize cache.getOrCompile pattern = result at houtcome ⊢
  cases houtcome with
  | hit _ h' =>
    rw [h] at h'
    cases h'
    rfl
  | failed h' => simp [compile_of_find? h] at h'
  | unkept hcapacity' _ => exact absurd hcapacity' hcapacity
  | inserted _ h' _ => simp [h] at h'

/-- A pattern that is not kept is compiled anew. -/
theorem getOrCompile_of_find?_eq_none {cache : GlobCache} {pattern : String} {glob : Glob}
    (hfind : cache.capacity ≠ 0 → cache.find? pattern = none)
    (h : Glob.compile pattern = .ok glob) :
    (cache.getOrCompile pattern).1 = .ok ⟨cache.nextSerial, glob⟩ := by
  have houtcome := getOrCompile_outcome cache pattern
  generalize cache.getOrCompile pattern = result at houtcome ⊢
  cases houtcome with
  | hit hcapacity h' => simp [hfind hcapacity] at h'
  | failed h' => simp [h] at h'
  | unkept _ h' | inserted _ _ h' =>
    rw [h] at h'
    cases h'
    rfl

/-- **What a step keeps holds of a run.** What has been seen by then may be part of it. -/
theorem run_induction {α : Type} {see : GlobCache → Call → Option α}
    {holds : List α → GlobCache → Prop}
    (hstep : ∀ seen cache call, holds seen cache →
      holds (seen ++ (see cache call).toList) (cache.step call))
    {seen : List α} {cache : GlobCache} (h : holds seen cache) (calls : List Call) :
    holds (seen ++ observe see cache calls) (cache.run calls) := by
  induction calls generalizing seen cache with
  | nil => simpa [observe, run] using h
  | cons call calls ih =>
    have hrest := ih (hstep seen cache call h)
    rwa [List.append_assoc] at hrest

/-! ### The window -/

theorem sinceCleared_append_inserted (events : List Event) (entry : Entry) :
    sinceCleared (events ++ [.inserted entry]) = sinceCleared events ++ [entry] := by
  simp [sinceCleared]

theorem sinceCleared_append_cleared (events : List Event) :
    sinceCleared (events ++ [.cleared]) = [] := by
  simp [sinceCleared]

/-- The cache is the window on the events that ends now. -/
structure Window (capacity : Nat) (events : List Event) (cache : GlobCache) : Prop where
  /-- The capacity is never changed. -/
  capacity_eq : cache.capacity = capacity
  /-- The table has the last entries. -/
  table_eq : cache.table.map entryOf = (sinceCleared events).rtake capacity
  /-- The queue has the patterns of the table, in the order of their insertion. -/
  queue_eq : cache.queue = cache.table.map KeptGlob.pattern
  /-- No pattern is kept twice. -/
  nodup : cache.queue.Nodup

theorem window_empty (capacity : Nat) : Window capacity [] (empty capacity) :=
  ⟨rfl, (List.rtake_nil capacity).symm, rfl, List.nodup_nil⟩

/-- A table without the glob of a pattern that it does not have. -/
theorem without_of_notMem {pattern : String} {table : List KeptGlob}
    (h : pattern ∉ table.map KeptGlob.pattern) : without pattern table = table := by
  refine List.filter_eq_self.mpr fun kept hkept => ?_
  have hne : kept.pattern ≠ pattern := fun heq => h (heq ▸ List.mem_map_of_mem hkept)
  simpa using hne

/-- **While the queue has the patterns of the table, at most one of them has to go**, and then
there is room. -/
theorem makeRoom_of_length_le {capacity : Nat} {table : List KeptGlob}
    (hnodup : (table.map KeptGlob.pattern).Nodup) (hlength : table.length ≤ capacity)
    (hcapacity : 0 < capacity) :
    makeRoom capacity (table.map KeptGlob.pattern) table =
      if capacity ≤ table.length then (table.tail.map KeptGlob.pattern, table.tail)
      else (table.map KeptGlob.pattern, table) := by
  cases table with
  | nil =>
    rw [List.length_nil, if_neg (Nat.not_le.mpr hcapacity)]
    rfl
  | cons oldest table =>
    have hwithout : without oldest.pattern (oldest :: table) = table := by
      rw [without, List.filter_cons_of_neg (by simp)]
      exact without_of_notMem (List.nodup_cons.mp hnodup).1
    rw [List.map_cons, makeRoom, hwithout]
    split
    · have hroom : ¬ capacity ≤ table.length := by
        rw [List.length_cons] at hlength
        omega
      cases table with
      | nil => rfl
      | cons next table =>
        rw [List.map_cons, makeRoom, if_neg hroom]
        rfl
    · rfl

/-- Making room runs dry exactly if there is none in the end. -/
theorem runsDry_iff {capacity : Nat} {queue : List String} {table : List KeptGlob} :
    RunsDry capacity queue table ↔ capacity ≤ (makeRoom capacity queue table).2.length := by
  induction queue generalizing table with
  | nil => rw [RunsDry, makeRoom]
  | cons oldest queue ih =>
    rw [RunsDry, makeRoom]
    split
    · next h => rw [ih, and_iff_right h]
    · next h => simp [h]

namespace Window

variable {capacity : Nat} {events : List Event} {cache : GlobCache}

theorem length_table (h : Window capacity events cache) :
    cache.table.length = min capacity (sinceCleared events).length := by
  rw [← List.length_map entryOf, h.table_eq, List.rtake, List.length_drop]
  omega

/-- In a window making room drops the oldest entry, if there is no room without that. -/
theorem makeRoom_eq (h : Window capacity events cache) (hcapacity : 0 < capacity) :
    ∃ table, makeRoom capacity cache.queue cache.table = (table.map KeptGlob.pattern, table) ∧
      table.map entryOf = (sinceCleared events).rtake (capacity - 1) ∧
      (table.map KeptGlob.pattern).Sublist cache.queue ∧ table.length < capacity := by
  have hlength := h.length_table
  have hnodup := h.nodup
  rw [h.queue_eq] at hnodup ⊢
  rw [makeRoom_of_length_le hnodup (by omega) hcapacity]
  obtain ⟨n, rfl⟩ : ∃ n, capacity = n + 1 := ⟨capacity - 1, by omega⟩
  rw [Nat.add_sub_cancel, rtake_of_rtake_succ, ← h.table_eq, List.length_map]
  split
  · refine ⟨cache.table.tail, rfl, List.map_tail, ?_, by simp; omega⟩
    exact (List.tail_sublist _).map _
  · next hroom => exact ⟨cache.table, rfl, rfl, List.Sublist.refl _, Nat.lt_of_not_le hroom⟩

/-- Making room never comes to the end of the queue. -/
theorem not_runsDry (h : Window capacity events cache) (hcapacity : 0 < capacity) :
    ¬ RunsDry capacity cache.queue cache.table := by
  obtain ⟨table, hroom, -, -, hlength⟩ := h.makeRoom_eq hcapacity
  rw [runsDry_iff, hroom]
  exact Nat.not_le.mpr hlength

/-- An insertion moves the window on by one entry. -/
theorem keep (h : Window capacity events cache) (hcapacity : capacity ≠ 0) (kept : KeptGlob)
    (hfind : cache.find? kept.pattern = none) (nextSerial : Nat) :
    Window capacity (events ++ [.inserted (entryOf kept)])
      ({ cache with nextSerial }.keep kept) := by
  obtain ⟨table, hroom, htable, hsublist, hlength⟩ := h.makeRoom_eq (Nat.pos_of_ne_zero hcapacity)
  have hnew : kept.pattern ∉ cache.queue := by
    rw [h.queue_eq]
    intro hmem
    obtain ⟨other, hother, heq⟩ := List.mem_map.mp hmem
    exact List.find?_eq_none.mp hfind other hother (by simpa using heq)
  have hwithout : without kept.pattern table = table :=
    without_of_notMem fun hmem => hnew (hsublist.subset hmem)
  obtain ⟨n, rfl⟩ : ∃ n, capacity = n + 1 := ⟨capacity - 1, by omega⟩
  have hkeep : { cache with nextSerial }.keep kept =
      { cache with
        nextSerial
        table := table ++ [kept]
        queue := table.map KeptGlob.pattern ++ [kept.pattern] } := by
    rw [GlobCache.keep]
    simp only [h.capacity_eq, hroom, hwithout]
  rw [hkeep]
  refine ⟨h.capacity_eq, ?_, ?_, ?_⟩
  · rw [sinceCleared_append_inserted, List.rtake_concat_succ, List.map_append, htable]
    rfl
  · rw [List.map_append]
    rfl
  · have hconcat := (h.nodup.sublist hsublist).concat fun hmem => hnew (hsublist.subset hmem)
    rwa [List.concat_eq_append] at hconcat

/-- **A call moves the window on by its event.** -/
theorem step (h : Window capacity events cache) (call : Call) :
    Window capacity (events ++ (event? cache call).toList) (cache.step call) := by
  cases call with
  | clear =>
    rw [event?, Option.toList_some]
    refine ⟨h.capacity_eq, ?_, rfl, List.nodup_nil⟩
    rw [sinceCleared_append_cleared]
    exact (List.rtake_nil capacity).symm
  | get pattern =>
    have houtcome := getOrCompile_outcome cache pattern
    rw [event?, GlobCache.step]
    generalize cache.getOrCompile pattern = result at houtcome ⊢
    cases houtcome with
    | hit _ hfind => simpa [hfind] using h
    | failed _ => simpa using h
    | unkept hcapacity _ =>
      rw [if_pos (.inl hcapacity), Option.toList_none, List.append_nil]
      exact ⟨h.capacity_eq, h.table_eq, h.queue_eq, h.nodup⟩
    | inserted hcapacity hfind hglob =>
      rw [if_neg (by simp [hcapacity, hfind])]
      exact h.keep (h.capacity_eq ▸ hcapacity) ⟨pattern, _, hglob⟩ hfind _

end Window

/-- **The cache is the window on its history.** -/
theorem window_run (capacity : Nat) (calls : List Call) :
    Window capacity ((empty capacity).history calls) ((empty capacity).run calls) :=
  run_induction (fun _ _ call h => h.step call) (window_empty capacity) calls

/-! ### What is in the window -/

/-- Behind the last clearing there are only insertions. -/
theorem exists_eq_append_sinceCleared (events : List Event) :
    ∃ before, events = before ++ (sinceCleared events).map .inserted := by
  induction events using List.reverseRecOn with
  | nil => exact ⟨[], rfl⟩
  | append_singleton events event ih =>
    cases event with
    | cleared => exact ⟨events ++ [.cleared], by simp [sinceCleared_append_cleared]⟩
    | inserted entry =>
      obtain ⟨before, hbefore⟩ := ih
      refine ⟨before, ?_⟩
      rw [sinceCleared_append_inserted, List.map_append, ← List.append_assoc, ← hbefore]
      rfl

theorem sinceCleared_append_map (before : List Event) (later : List Entry) :
    sinceCleared (before ++ later.map .inserted) = sinceCleared before ++ later := by
  induction later generalizing before with
  | nil => simp
  | cons entry later ih =>
    rw [List.map_cons, List.append_cons, ih, sinceCleared_append_inserted, ← List.append_cons]

/-- What was inserted recently was inserted last with this glob. -/
theorem Recent.lastInserted?_eq {capacity : Nat} {events : List Event} {pattern : String}
    {compiled : CompiledGlob} (h : Recent capacity events pattern compiled) :
    lastInserted? (sinceCleared events) pattern = some compiled := by
  obtain ⟨before, later, rfl, hlater, -⟩ := h
  have hentries := sinceCleared_append_map before (⟨pattern, compiled⟩ :: later)
  rw [List.map_cons] at hentries
  have hnone : later.reverse.find? (fun entry => entry.pattern == pattern) = none :=
    List.find?_eq_none.mpr fun entry hentry => by
      simpa using hlater entry (List.mem_reverse.mp hentry)
  rw [lastInserted?, hentries]
  simp [hnone]

namespace Window

variable {capacity : Nat} {events : List Event} {cache : GlobCache} {pattern : String}
  {compiled : CompiledGlob}

theorem nodup_rtake (h : Window capacity events cache) :
    (((sinceCleared events).rtake capacity).map Entry.pattern).Nodup := by
  rw [← h.table_eq, List.map_map]
  exact h.queue_eq ▸ h.nodup

/-- **The entries in the window are the recent ones.** -/
theorem recent_iff (h : Window capacity events cache) :
    Recent capacity events pattern compiled ↔
      ⟨pattern, compiled⟩ ∈ (sinceCleared events).rtake capacity := by
  constructor
  · rintro ⟨before, later, rfl, -, hlength⟩
    have hentries := sinceCleared_append_map before (⟨pattern, compiled⟩ :: later)
    rw [List.map_cons] at hentries
    exact mem_rtake_iff.mpr ⟨sinceCleared before, later, hentries, hlength⟩
  · intro hmem
    obtain ⟨xs, ys, hentries, hlength⟩ := mem_rtake_iff.mp hmem
    obtain ⟨before, hevents⟩ := exists_eq_append_sinceCleared events
    refine ⟨before ++ xs.map .inserted, ys, ?_, ?_, hlength⟩
    · rw [List.append_assoc]
      rw [hentries, List.map_append, List.map_cons] at hevents
      exact hevents
    · -- the pattern stands in the window already, so it does not stand there once more
      have hnodup := h.nodup_rtake
      rw [hentries, List.rtake, List.drop_append_of_le_length (by simp; omega), List.map_append,
        List.map_cons] at hnodup
      have hnot := (List.nodup_cons.mp (List.nodup_append.mp hnodup).2.1).1
      exact fun entry hentry heq => hnot (List.mem_map.mpr ⟨entry, hentry, heq⟩)

/-- A glob of the table is found under its pattern. -/
theorem find?_of_mem (h : Window capacity events cache) {kept : KeptGlob}
    (hkept : kept ∈ cache.table) : cache.find? kept.pattern = some kept := by
  have hnodup := h.queue_eq ▸ h.nodup
  cases hfind : cache.find? kept.pattern with
  | none => exact absurd (beq_self_eq_true _) (List.find?_eq_none.mp hfind kept hkept)
  | some other =>
    have hpattern : other.pattern = kept.pattern := by simpa using List.find?_some hfind
    rw [List.inj_on_of_nodup_map hnodup (List.mem_of_find?_eq_some hfind) hkept hpattern]

/-- What is found for a pattern is what it was inserted with recently. -/
theorem find?_iff (h : Window capacity events cache) :
    (∃ kept, cache.find? pattern = some kept ∧ kept.compiled = compiled) ↔
      Recent capacity events pattern compiled := by
  rw [h.recent_iff, ← h.table_eq, List.mem_map]
  constructor
  · rintro ⟨kept, hfind, rfl⟩
    have hpattern : kept.pattern = pattern := by simpa using List.find?_some hfind
    exact ⟨kept, List.mem_of_find?_eq_some hfind, hpattern ▸ rfl⟩
  · rintro ⟨kept, hkept, heq⟩
    obtain ⟨rfl, rfl⟩ : kept.pattern = pattern ∧ kept.compiled = compiled := by
      simpa [entryOf] using heq
    exact ⟨kept, h.find?_of_mem hkept, rfl⟩

end Window

/-! ### Serial numbers -/

/-- Making room only drops globs. -/
theorem makeRoom_subset (capacity : Nat) (queue : List String) (table : List KeptGlob) :
    (makeRoom capacity queue table).2 ⊆ table := by
  induction queue generalizing table with
  | nil => exact List.Subset.refl table
  | cons oldest queue ih =>
    rw [makeRoom]
    split
    · exact List.Subset.trans (ih _) (List.filter_subset_self _)
    · exact List.Subset.refl table

/-- The serial numbers that have been given out are below the next one. -/
structure Issued (handed : List CompiledGlob) (cache : GlobCache) : Prop where
  /-- Those of the globs that were handed out. -/
  handed_lt : ∀ compiled ∈ handed, compiled.serial < cache.nextSerial
  /-- Those of the globs that are kept. -/
  kept_lt : ∀ kept ∈ cache.table, kept.compiled.serial < cache.nextSerial

theorem issued_empty (capacity : Nat) : Issued [] (empty capacity) :=
  ⟨by simp, by simp [empty]⟩

/-- A new serial number is handed out and may be kept. -/
theorem Issued.next {handed : List CompiledGlob} {cache cache' : GlobCache}
    (h : Issued handed cache) {compiled : CompiledGlob}
    (hserial : compiled.serial = cache.nextSerial)
    (hnext : cache'.nextSerial = cache.nextSerial + 1)
    (htable : ∀ kept ∈ cache'.table, kept ∈ cache.table ∨ kept.compiled = compiled) :
    Issued (handed ++ [compiled]) cache' := by
  have hcompiled : compiled.serial < cache'.nextSerial := by omega
  refine ⟨fun other hother => ?_, fun kept hkept => ?_⟩
  · rcases List.mem_append.mp hother with hother | hother
    · exact hnext ▸ Nat.lt_succ_of_lt (h.handed_lt other hother)
    · exact List.mem_singleton.mp hother ▸ hcompiled
  · rcases htable kept hkept with hold | rfl
    · exact hnext ▸ Nat.lt_succ_of_lt (h.kept_lt kept hold)
    · exact hcompiled

/-- What is kept after an insertion was kept before, or is what was inserted. -/
theorem mem_table_keep {cache : GlobCache} {kept other : KeptGlob}
    (h : other ∈ (cache.keep kept).table) : other ∈ cache.table ∨ other = kept := by
  rw [keep] at h
  rcases List.mem_append.mp h with h | h
  · exact .inl (makeRoom_subset _ _ _ (List.mem_of_mem_filter h))
  · exact .inr (List.mem_singleton.mp h)

/-- **A call gives out one serial number at most, and that is new.** -/
theorem Issued.step {handed : List CompiledGlob} {cache : GlobCache} (h : Issued handed cache)
    (call : Call) : Issued (handed ++ (handed? cache call).toList) (cache.step call) := by
  cases call with
  | clear =>
    rw [handed?, Option.toList_none, List.append_nil]
    exact ⟨h.handed_lt, fun kept hkept => absurd hkept List.not_mem_nil⟩
  | get pattern =>
    have houtcome := getOrCompile_outcome cache pattern
    rw [handed?, GlobCache.step]
    generalize cache.getOrCompile pattern = result at houtcome ⊢
    cases houtcome with
    | hit _ hfind =>
      refine ⟨fun other hother => ?_, h.kept_lt⟩
      rcases List.mem_append.mp hother with hother | hother
      · exact h.handed_lt other hother
      · rw [List.mem_singleton.mp hother]
        exact h.kept_lt _ (List.mem_of_find?_eq_some hfind)
    | failed _ => exact ⟨by simpa [Except.toOption] using h.handed_lt, h.kept_lt⟩
    | unkept _ _ => exact h.next rfl rfl fun kept hkept => .inl hkept
    | inserted _ _ _ =>
      refine h.next rfl rfl fun kept hkept => ?_
      exact (mem_table_keep hkept).imp id (congrArg KeptGlob.compiled)

/-- The serial numbers of a run are all below the next one. -/
theorem issued_run (capacity : Nat) (calls : List Call) :
    Issued ((empty capacity).handedOut calls) ((empty capacity).run calls) :=
  run_induction (fun _ _ call h => h.step call) (issued_empty capacity) calls

/-! ### The cache as a window -/

/-- **The cache is a first-in-first-out window.** After any calls the queue has the patterns of
the entries that were inserted last since the cache was cleared, as many as there is room for and
each once. The table has just these patterns, each with the glob of its last insertion. A pattern
that was inserted recently is handed out as it was then, and the cache stays as it is; any other
pattern that has a glob is compiled into an object that was never handed out before; and a pattern
that has none leaves the cache as it is. Making room never comes to the end of the queue. -/
theorem keeps_last_inserted (capacity : Nat) (calls : List Call) :
    let cache := (empty capacity).run calls
    let events := (empty capacity).history calls
    let entries := sinceCleared events
    cache.queue = (entries.map Entry.pattern).rtake capacity ∧ cache.queue.Nodup ∧
    cache.table.map KeptGlob.pattern = cache.queue ∧
    (∀ kept ∈ cache.table, lastInserted? entries kept.pattern = some kept.compiled) ∧
    cache.size = min capacity entries.length ∧
    (∀ pattern compiled, Recent capacity events pattern compiled →
      cache.getOrCompile pattern = (.ok compiled, cache)) ∧
    (∀ pattern glob, (∀ compiled, ¬ Recent capacity events pattern compiled) →
      Glob.compile pattern = .ok glob → ∃ serial,
        (cache.getOrCompile pattern).1 = .ok ⟨serial, glob⟩ ∧
        ∀ compiled ∈ (empty capacity).handedOut calls, compiled.serial ≠ serial) ∧
    (∀ pattern e, Glob.compile pattern = .error e →
      cache.getOrCompile pattern = (.error e, cache)) ∧
    (0 < capacity → ¬ RunsDry capacity cache.queue cache.table) := by
  intro cache events entries
  have hwindow : Window capacity events cache := window_run capacity calls
  have hissued := issued_run capacity calls
  refine ⟨?_, hwindow.nodup, hwindow.queue_eq.symm, fun kept hkept => ?_, hwindow.length_table,
    fun pattern compiled hrecent => ?_, fun pattern glob hrecent hglob => ?_,
    fun pattern e => getOrCompile_of_error, hwindow.not_runsDry⟩
  · have hpatterns := congrArg (List.map Entry.pattern) hwindow.table_eq
    rw [List.map_map, List.rtake, List.map_drop] at hpatterns
    rw [hwindow.queue_eq, List.rtake, List.length_map]
    exact hpatterns
  · exact (hwindow.find?_iff.mp ⟨kept, hwindow.find?_of_mem hkept, rfl⟩).lastInserted?_eq
  · obtain ⟨kept, hfind, rfl⟩ := hwindow.find?_iff.mpr hrecent
    obtain ⟨_, later, -, -, hlength⟩ := hrecent
    exact getOrCompile_of_find? (by rw [hwindow.capacity_eq]; omega) hfind
  · refine ⟨cache.nextSerial, getOrCompile_of_find?_eq_none (fun _ => ?_) hglob,
      fun compiled hcompiled => Nat.ne_of_lt (hissued.handed_lt compiled hcompiled)⟩
    cases hfind : cache.find? pattern with
    | none => rfl
    | some kept => exact absurd (hwindow.find?_iff.mp ⟨kept, hfind, rfl⟩) (hrecent kept.compiled)

end

section

open Builtin

/-- Where there is room for two globs, a third takes the place of the first, although the first was
asked for again in between. The second keeps its object and the first gets a new one. -/
theorem keeps_last_inserted_eviction :
    let cache := (empty 2).run [.get "a", .get "b", .get "a", .get "c"]
    cache.queue = ["b", "c"] ∧
      (∃ glob, cache.getOrCompile "b" = (.ok ⟨1, glob⟩, cache)) ∧
      (∃ serial glob, (cache.getOrCompile "a").1 = .ok ⟨serial, glob⟩ ∧ serial ≠ 0) ∧
      ¬ RunsDry 2 cache.queue cache.table := by
  let a : Glob := ⟨"a", [.exactly 'a'], rfl⟩
  let b : Glob := ⟨"b", [.exactly 'b'], rfl⟩
  let c : Glob := ⟨"c", [.exactly 'c'], rfl⟩
  let calls : List Call := [.get "a", .get "b", .get "a", .get "c"]
  have hhistory : (empty 2).history calls =
      [.inserted ⟨"a", 0, a⟩, .inserted ⟨"b", 1, b⟩, .inserted ⟨"c", 2, c⟩] := rfl
  have hhanded : (⟨0, a⟩ : CompiledGlob) ∈ (empty 2).handedOut calls := List.mem_cons_self
  have hgone : ∀ compiled, ¬ Recent 2 ((empty 2).history calls) "a" compiled := by
    intro compiled hrecent
    rw [(window_run 2 calls).recent_iff, hhistory] at hrecent
    have hwindow : (⟨"a", compiled⟩ : Entry) ∈ [⟨"b", 1, b⟩, ⟨"c", 2, c⟩] := hrecent
    simp at hwindow
  obtain ⟨hqueue, -, -, -, -, hrecent, hnew, -, hdry⟩ := keeps_last_inserted 2 calls
  obtain ⟨serial, hget, hserial⟩ := hnew "a" a hgone rfl
  rw [hhistory] at hqueue hrecent
  refine ⟨hqueue, ⟨b, hrecent "b" ⟨1, b⟩ ?_⟩, ⟨serial, a, hget, (hserial _ hhanded).symm⟩,
    hdry (by decide)⟩
  exact ⟨[.inserted ⟨"a", 0, a⟩], [⟨"c", 2, c⟩], rfl, by simp, by simp⟩

end

end AccessRules.GlobCache
