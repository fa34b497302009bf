import AccessRules.Proofs.Account
import AccessRules.Request

/-!
# The cache does not show

An engine hands its cache on from one request to the next. What it shows all the same is what a
new engine without a cache shows that is asked the one request alone. So no reply depends on what
was asked before, on which globs had to make room, or on how many are kept.

## Main definitions

* `Reply.content`: what a reply says, whichever compiled glob it hands out
* `Checked.shown`: the content of a reply and the notices that came with it

## Main statements

* `answers_check`: every request has one reply, from whatever cache
* `shown_answer`: one request
* `serve_eq_alone`: a session

## Implementation notes

A reply may hand out a compiled glob, and its serial number does tell whether it was kept. That
number is all that is dropped from a reply: the glob itself, with its pattern and everything that
it matches, belongs to the content.
-/

namespace AccessRules

variable [RegexLibrary]

/-- What a reply says: the reply itself, but of a compiled glob only the glob. -/
def Reply.content : Reply → Reply
  | .compiled result => .compiled (result.map fun compiled => { compiled with serial := 0 })
  | reply => reply

/-- What an outcome shows: the content of its value and its notices, the reports among them. -/
def Checked.shown (outcome : Checked Reply) : Reply × List Notice :=
  (outcome.value.content, outcome.notices)

/-- What a new engine without a cache shows that is asked this alone. -/
def Settings.alone (settings : Settings) (query : Query) : Checked Reply :=
  ((Engine.new { settings with cacheCapacity := 0 }).answer query.granted query.request).1

open Checking

/-- **Every request has one reply**, from whatever cache. -/
theorem Request.answers_check (granted : List String) (request : Request) (settings : Settings) :
    ∃ reply, (Reply.content <$> request.check granted settings).Answers reply := by
  cases request with
  | decide text => exact ⟨_, ((Decision.answers_evaluateText settings granted text).map _).map _⟩
  | evaluate e => exact ⟨_, ((Decision.answers_evaluate granted e).map _).map _⟩
  | validate text => exact ⟨_, (answers_pure _).map _⟩
  | parse text => exact ⟨_, (answers_pure _).map _⟩
  | matchPattern pattern =>
    exact ⟨_, ((Decision.answers_matchesPattern granted pattern).map _).map _⟩
  | list pattern =>
    exact ⟨_, ((Decision.answers_matchingPermissions granted pattern).map _).map _⟩
  | hasAny texts => exact ⟨_, ((Decision.answers_hasAny settings granted texts).map _).map _⟩
  | hasAll texts => exact ⟨_, ((Decision.answers_hasAll settings granted texts).map _).map _⟩
  | explain text => exact ⟨_, ((Explanation.answers_ofText settings granted text).map _).map _⟩
  | compile pattern =>
    refine ⟨.compiled ((Glob.compile pattern).map (⟨0, ·⟩)), ?_⟩
    have hcontent : Reply.content <$> (compile pattern).check granted settings =
        (fun result => .compiled (result.map (⟨0, ·⟩))) <$>
          ((·.map CompiledGlob.glob) <$> compiled pattern) := by
      rw [check, ← comp_map, ← comp_map]
      congr 1
      funext result
      cases result <;> rfl
    rw [hcontent]
    exact (answers_map_compiled pattern).map _
  | forget => exact ⟨_, (answers_forget.map _).map _⟩

/-- A check does not look at the capacity of the cache. -/
theorem Request.check_capacity (granted : List String) (request : Request) (settings : Settings)
    (capacity : UInt64) :
    request.check granted { settings with cacheCapacity := capacity } =
      request.check granted settings := by
  cases request <;> rfl

namespace Engine

/-- **One request shows what it shows alone**, whatever cache the engine has by then. -/
theorem shown_answer (engine : Engine) (query : Query) :
    (engine.answer query.granted query.request).1.shown =
      (engine.settings.alone query).shown := by
  obtain ⟨reply, hreply⟩ := query.request.answers_check query.granted engine.settings
  let fresh : GlobCache := .empty (0 : UInt64).toNat
  have hvalue := (hreply.value_eq engine.cache).trans (hreply.value_eq fresh).symm
  have hnotices := hreply.notices_eq engine.cache fresh
  rw [run_map, run_map] at hvalue hnotices
  have halone : engine.settings.alone query =
      (query.request.check query.granted engine.settings).run fresh := by
    rw [← query.request.check_capacity query.granted engine.settings 0]
    rfl
  rw [halone]
  exact Prod.ext hvalue hnotices

/-- A session shows request by request what each of them shows alone. -/
theorem map_shown_serve (engine : Engine) (queries : List Query) :
    (engine.serve queries).1.map Checked.shown =
      queries.map fun query => (engine.settings.alone query).shown := by
  induction queries generalizing engine with
  | nil => rfl
  | cons query queries ih =>
    have hrest := ih (engine.answer query.granted query.request).2
    rw [settings_answer] at hrest
    rw [serve, List.map_cons, List.map_cons, shown_answer, hrest]

/-- **The cache does not show.** Whatever an engine has in its cache when a session begins, each
of its requests shows what it shows when a new engine without a cache is asked it alone: the same
reply, up to the serial number of a compiled glob, and the same reports in the same order. So the
whole session shows the same from any other cache, of any capacity. -/
theorem serve_eq_alone (engine : Engine) (queries : List Query) :
    (engine.serve queries).1.map Checked.shown =
        queries.map (fun query => (engine.settings.alone query).shown) ∧
      (engine.serve queries).1.map Checked.diagnostics =
        queries.map (fun query => (engine.settings.alone query).diagnostics) ∧
      ∀ capacity cache,
        ((Engine.mk { engine.settings with cacheCapacity := capacity } cache).serve queries).1.map
            Checked.shown =
          (engine.serve queries).1.map Checked.shown := by
  refine ⟨map_shown_serve engine queries, ?_, fun capacity cache => ?_⟩
  · have hreports := congrArg (List.map fun shown => shown.2.filterMap Notice.diagnostic?)
      (map_shown_serve engine queries)
    rwa [List.map_map, List.map_map] at hreports
  · rw [map_shown_serve, map_shown_serve]
    rfl

end Engine

end AccessRules
