import AccessRules.Program
import AccessRules.Proofs.Account
import AccessRules.Proofs.Grants

/-!
# What the status of a run tells

Scripts look at the status alone, so a status of 0 has to mean that access is granted, and nothing
else may lead to it. A run ends with 2 if there is a settings file that cannot be used. Otherwise
the status is the answer of the command, for the engine with the settings of the file, or of the
environment where no file is named. A named file leaves nothing to the environment but the filter
of the log.

## Main definitions

* `Unusable`, `Configures`: a settings file is of no use; a run is to have these settings
* `Succeeds`: the answer of a command, asked of an engine
* `SameBut`: two surroundings that differ in variables with a prefix at most

## Main statements

* `loadSettings_eq_ok_iff`, `exists_loadSettings_eq_error_iff`: what loading the settings comes to
* `value_runCommand`: a command succeeds if its answer is yes, also where it only explains
* `status_tells_answer`: the status of a run, and what it does not depend on
-/

namespace AccessRules.Program

open CommandLine Checking

/-! ### Parts of a run -/

theorem exitCode_finished (succeeded : Bool) (output : String) :
    (Ending.finished succeeded output).exitCode = if succeeded then 0 else 1 := by
  cases succeeded <;> rfl

theorem logLines_congr [LogLibrary] {world world' : World}
    (h : world.lookup filterVariable = world'.lookup filterVariable) :
    logLines world = logLines world' := by
  funext format events
  rw [logLines, logLines, h]

section

variable [JsonLibrary]

/-! ### Settings -/

/-- The file at `path` cannot be read, or its text holds no settings. -/
def Unusable (world : World) (path : String) : Prop :=
  (∃ fault, world.file path = .error fault) ∨
    ∃ text message, world.file path = .ok text ∧ Settings.ofJson text = .error message

/-- A run is to have these settings: those of the file that is named, or those of the
environment. -/
inductive Configures (world : World) : Option String → Settings → Prop where
  | file {path text : String} {settings : Settings} (hfile : world.file path = .ok text)
      (htext : Settings.ofJson text = .ok settings) : Configures world (some path) settings
  | environment : Configures world none (Settings.ofLookup world.lookup)

variable {world world' : World} {config : Option String} {settings : Settings}

theorem loadSettings_eq_ok_iff :
    loadSettings world config = .ok settings ↔ Configures world config settings := by
  constructor
  · intro h
    cases config with
    | none => exact Except.ok.inj h ▸ .environment
    | some path =>
      rw [loadSettings, settingsFromFile] at h
      split at h
      · cases h
      · next text hfile =>
        split at h
        · cases h
        · next htext => exact .file hfile (Except.ok.inj h ▸ htext)
  · intro h
    cases h with
    | file hfile htext => simp only [loadSettings, settingsFromFile, hfile, htext]
    | environment => rfl

theorem exists_loadSettings_eq_error_iff :
    (∃ fault, loadSettings world config = .error fault) ↔
      ∃ path, config = some path ∧ Unusable world path := by
  constructor
  · rintro ⟨fault, h⟩
    cases config with
    | none => cases h
    | some path =>
      refine ⟨path, rfl, ?_⟩
      rw [loadSettings, settingsFromFile] at h
      split at h
      · next fault' hfile => exact .inl ⟨fault', hfile⟩
      · next text hfile =>
        split at h
        · next message htext => exact .inr ⟨text, message, hfile, htext⟩
        · cases h
  · rintro ⟨path, rfl, ⟨fault, hfile⟩ | ⟨text, message, hfile, htext⟩⟩
    · exact ⟨.unreadable path fault, by simp only [loadSettings, settingsFromFile, hfile]⟩
    · exact ⟨.invalid path message, by simp only [loadSettings, settingsFromFile, hfile, htext]⟩

/-- There are settings for a run, unless its file is of no use. -/
theorem unusable_or_configures (world : World) (config : Option String) :
    (∃ path, config = some path ∧ Unusable world path) ∨
      ∃ settings, Configures world config settings := by
  cases hload : loadSettings world config with
  | error fault => exact .inl (exists_loadSettings_eq_error_iff.mp ⟨fault, hload⟩)
  | ok settings => exact .inr ⟨settings, loadSettings_eq_ok_iff.mp hload⟩

/-! ### Commands -/

variable [RegexLibrary]

/-- The answer of a command is yes: the text holds, it is an expression, or a granted name
matches it. -/
def Succeeds (engine : Engine) (command : Command) : Prop :=
  match command.verb with
  | .check | .explain =>
    (engine.run fun settings =>
      Decision.evaluateText settings command.granted command.operand).1.value = true
  | .validate => ∃ e, Expr.ofText engine.settings command.operand = .ok e
  | .list =>
    (engine.run fun _ =>
      Decision.matchingPermissions command.granted command.operand).1.value ≠ []

/-- **A command succeeds if its answer is yes.** An explanation reaches it by another way than the
decision that it explains. -/
theorem value_runCommand (engine : Engine) (command : Command) :
    (engine.run fun settings => runCommand settings command).1.value.1 = true ↔
      Succeeds engine command := by
  obtain ⟨verb, operand, granted⟩ := command
  cases verb with
  | check => rfl
  | validate =>
    simp only [Engine.run, runCommand, Succeeds]
    cases Expr.ofText engine.settings operand with
    | ok e => exact iff_of_true rfl ⟨e, rfl⟩
    | error e =>
      refine iff_of_false Bool.false_ne_true ?_
      rintro ⟨e', h⟩
      cases h
  | list =>
    simp [Engine.run, runCommand, Succeeds]
  | explain =>
    -- The walk of the explanation and the decision are compared by what both answer.
    have hexplained := (Explanation.answers_ofText engine.settings granted operand).value_eq
      engine.cache
    have hdecided := (Decision.answers_evaluateText engine.settings granted operand).value_eq
      engine.cache
    simp only [Engine.run, runCommand, Succeeds, run_bind, run_pure, hexplained, hdecided,
      Explanation.granted_account]

/-! ### Runs -/

variable {args : List String} {invocation : Invocation}

/-- **Without settings a run fails**, and there is nothing to write. -/
theorem ending_of_unusable {path : String} (h : Unusable world path)
    (hconfig : invocation.config = some path) :
    ∃ fault, (execute world invocation).ending = .failed fault := by
  obtain ⟨fault, hload⟩ := exists_loadSettings_eq_error_iff.mpr ⟨path, hconfig, h⟩
  exact ⟨fault, by rw [execute, hload]⟩

/-- **With settings a run ends with the answer of its command.** -/
theorem exitCode_of_configures (h : Configures world invocation.config settings) :
    (execute world invocation).ending.exitCode = 0 ∧
        Succeeds (.new settings) invocation.command ∨
      (execute world invocation).ending.exitCode = 1 ∧
        ¬ Succeeds (.new settings) invocation.command := by
  rw [← value_runCommand, execute, loadSettings_eq_ok_iff.mpr h]
  simp only [exitCode_finished]
  cases ((Engine.new settings).run fun settings =>
      runCommand settings invocation.command).1.value.1 with
  | true => exact .inl ⟨rfl, rfl⟩
  | false => exact .inr ⟨rfl, Bool.false_ne_true⟩

theorem exitCode_eq_two_iff :
    (execute world invocation).ending.exitCode = 2 ↔
      ∃ path, invocation.config = some path ∧ Unusable world path := by
  constructor
  · intro hstatus
    rcases unusable_or_configures world invocation.config with hunusable | ⟨settings, hsettings⟩
    · exact hunusable
    · obtain ⟨hzero, -⟩ | ⟨hone, -⟩ := exitCode_of_configures hsettings <;> omega
  · rintro ⟨path, hconfig, hunusable⟩
    obtain ⟨fault, hending⟩ := ending_of_unusable hunusable hconfig
    rw [hending]
    rfl

/-! ### What a run does not depend on -/

/-- The same files and the same variables, but for those whose names start with `start`. -/
def SameBut (start : String) (world world' : World) : Prop :=
  world.file = world'.file ∧
    ∀ name, ¬ start.toList <+: name.toList → world.lookup name = world'.lookup name

/-- With a settings file the environment is not looked at. -/
theorem execute_congr {path : String} (hconfig : invocation.config = some path)
    (hfile : world.file path = world'.file path) :
    execute world invocation = execute world' invocation := by
  have hload : loadSettings world (some path) = loadSettings world' (some path) := by
    rw [loadSettings, loadSettings, settingsFromFile, settingsFromFile, hfile]
  -- Variables that are ignored are reported only where the settings come from variables.
  simp only [execute, hload, hconfig, Option.isSome_some, if_true]

/-- **The status of a run tells the answer of its command.** For every command line that is read,
the status is 2 exactly if a settings file is named that cannot be used, and then nothing is
written. Otherwise it is 0 or 1, and 0 exactly if the answer is yes for the engine with the
settings of the file, or of the environment where none is named. With a settings file, a run does
not depend on the variables that hold settings. -/
theorem status_tells_answer [ArgumentLibrary declaration] [LogLibrary]
    (h : Invocation.ofArguments args = .ok invocation) (world : World) :
    ((run world args).exitCode = 2 ↔
        ∃ path, invocation.config = some path ∧ Unusable world path) ∧
      ((run world args).exitCode = 2 → (run world args).output = "") ∧
      ((run world args).exitCode ≠ 2 →
        ∃ settings, Configures world invocation.config settings ∧
          ((run world args).exitCode = 0 ∧ Succeeds (.new settings) invocation.command ∨
            (run world args).exitCode = 1 ∧ ¬ Succeeds (.new settings) invocation.command)) ∧
      (invocation.config.isSome → ∀ world', SameBut "PERMGATE_" world world' →
        run world args = run world' args) := by
  have hrun (world : World) : run world args =
      ⟨(execute world invocation).ending.exitCode, (execute world invocation).ending.output,
        logLines world invocation.logFormat (execute world invocation).events,
        (execute world invocation).ending.failure?, none⟩ := by
    rw [run, h]
  refine ⟨?_, ?_, ?_, ?_⟩
  · rw [hrun]
    exact exitCode_eq_two_iff
  · rw [hrun]
    intro hstatus
    obtain ⟨path, hconfig, hunusable⟩ := exitCode_eq_two_iff.mp hstatus
    obtain ⟨fault, hending⟩ := ending_of_unusable hunusable hconfig
    exact congrArg Ending.output hending
  · rw [hrun]
    intro hstatus
    obtain ⟨settings, hsettings⟩ := (unusable_or_configures world invocation.config).resolve_left
      (mt exitCode_eq_two_iff.mpr hstatus)
    exact ⟨settings, hsettings, exitCode_of_configures hsettings⟩
  · intro hconfig world' hsame
    obtain ⟨path, hpath⟩ := Option.isSome_iff_exists.mp hconfig
    have hvariable : ¬ "PERMGATE_".toList <+: filterVariable.toList := by decide
    rw [hrun, hrun, execute_congr hpath (congrFun hsame.1 path),
      logLines_congr (hsame.2 filterVariable hvariable)]

end

section

open scoped Builtin

/-- A settings file that is missing, whatever the environment sets, and a text that holds under all
settings. -/
theorem status_tells_answer_without_file :
    (run ⟨fun _ => none, fun _ => .error .missing⟩
        ["explain", "a", "--config", "rules.json"]).exitCode = 2 ∧
      (run ⟨fun _ => none, fun _ => .error .missing⟩
        ["explain", "a", "--config", "rules.json"]).output = "" ∧
      run ⟨fun _ => none, fun _ => .error .missing⟩ ["explain", "a", "--config", "rules.json"] =
        run ⟨fun name => if name = Setting.maxLength.variableName then some "1" else none,
          fun _ => .error .missing⟩ ["explain", "a", "--config", "rules.json"] ∧
      (run ⟨fun _ => none, fun _ => .error .missing⟩ ["explain", " true "]).exitCode = 0 := by
  have htakes : Verb.explain.takesGrants = true := rfl
  have hnamed : Invocation.ofArguments ["explain", "a", "--config", "rules.json"] =
      .ok ⟨some "rules.json", .json, ⟨.explain, "a", []⟩⟩ := by
    have hsays : Says [] [.operand "a", .option .config "--config" "rules.json"] "a"
        (some "rules.json") none := by
      constructor <;> decide +kernel
    exact ofArguments_commandLine Builtin.documented_argumentLibrary htakes hsays
  have hunnamed : Invocation.ofArguments ["explain", " true "] =
      .ok ⟨none, .json, ⟨.explain, " true ", []⟩⟩ := by
    have hsays : Says [] [.operand " true "] " true " none none := by
      constructor <;> decide +kernel
    exact ofArguments_commandLine Builtin.documented_argumentLibrary htakes hsays
  have hholds (settings : Settings) :
      Succeeds (.new settings) ⟨.explain, " true ", []⟩ := by
    have hliteral : literal? " true " = some true := by decide +kernel
    refine ((Decision.answers_evaluateText settings [] " true ").value_eq _).trans ?_
    rw [Decision.decides, hliteral]
  let nowhere : World := ⟨fun _ => none, fun _ => .error .missing⟩
  obtain ⟨htwo, houtput, -, hsame⟩ := status_tells_answer hnamed nowhere
  obtain ⟨htwo', -, hanswer, -⟩ := status_tells_answer hunnamed nowhere
  have hstatus : (run nowhere ["explain", "a", "--config", "rules.json"]).exitCode = 2 :=
    htwo.mpr ⟨"rules.json", rfl, .inl ⟨.missing, rfl⟩⟩
  have hother : (run nowhere ["explain", " true "]).exitCode ≠ 2 := by
    intro h
    obtain ⟨path, hpath, -⟩ := htwo'.mp h
    cases hpath
  refine ⟨hstatus, houtput hstatus, ?_, ?_⟩
  · refine hsame rfl _ ⟨rfl, ?_⟩
    intro name hname
    have hne : name ≠ Setting.maxLength.variableName :=
      fun h => hname (h ▸ by decide)
    exact (if_neg hne).symm
  · obtain ⟨settings, -, ⟨hzero, -⟩ | ⟨-, hno⟩⟩ := hanswer hother
    · exact hzero
    · exact absurd (hholds settings) hno

end

end AccessRules.Program
