import AccessRules.Proofs.Invocations

/-!
# Granted names on the command line

A grant that is lost, or taken for something else, changes a decision without notice. With a library
that keeps its promises, the command line of a command that takes grants says what its items say,
kind by kind, so that how the kinds are mixed does not matter.

## Main definitions

* `Item.Written`: an item is written as the help says
* `Says`: the items say one operand, and each general option at most once

## Main statements

* `ofArguments_commandLine`: what the items say is what is run
* `grants_collected_in_order`: no grant is lost, and a list of grants may be cut in two
* `Builtin.documented_argumentLibrary`: the built-in library keeps the promises
-/

namespace AccessRules

namespace CommandLine

/-! ### What is written -/

/-- An item is written as the help says. -/
def Item.Written : Item Opt → Prop
  | operand text => Dashless text
  | option .config flag path => flag = "--config" ∧ path ≠ "" ∧ Dashless path
  | option .logFormat flag name => flag = "--log-format" ∧ (Log.Format.ofName? name).isSome
  | option .grant flag value => (flag = "-g" ∨ flag = "--grant") ∧ Dashless value

instance (item : Item Opt) : Decidable item.Written :=
  match item with
  | .operand _ => inferInstanceAs (Decidable (Dashless _))
  | .option .config _ _ => inferInstanceAs (Decidable (_ ∧ _))
  | .option .logFormat _ _ => inferInstanceAs (Decidable (_ ∧ _))
  | .option .grant _ _ => inferInstanceAs (Decidable (_ ∧ _))

/-- The items say one operand, and a settings file and a log format at most once each. Before the
name of the command there are only settings files and log formats. -/
structure Says (before after : List (Item Opt)) (operand : String) (config : Option String)
    (format : Option Log.Format) : Prop where
  written : ∀ item ∈ before ++ after, item.Written
  general : ∀ item ∈ before, item.operand? = none ∧ item.value? .grant = none
  operand : after.filterMap Item.operand? = [operand]
  config : valuesOf .config (before ++ after) = config.toList
  format : (valuesOf .logFormat (before ++ after)).map Log.Format.ofName? = format.toList.map some

variable {verb : Verb} {before after front back : List (Item Opt)} {operand x y : String}
  {config : Option String} {format : Option Log.Format} {whole first second : String}

/-! ### Items as declared -/

/-- A log format is not looked up under a name that starts with a dash. -/
theorem dashless_of_isSome_ofName? {value : String} (h : (Log.Format.ofName? value).isSome) :
    Dashless value := by
  intro hdash
  obtain ⟨cs, hcs⟩ := List.head?_eq_some_iff.mp hdash
  have hfold : (Log.Format.fold value).toList.head? = some '-' := by
    rw [Log.Format.fold, Text.lower, String.toList_ofList, Text.lowerChars, List.head?_map,
      Text.toList_trim, hcs, Text.head?_trimChars_of_not_blank (by decide)]
    rfl
  have hother {name : String} (hname : name.toList.head? ≠ some '-') :
      Log.Format.fold value ≠ name :=
    fun heq => hname (heq ▸ hfold)
  have hnone : Log.Format.ofName? value = none := by
    simp only [Log.Format.ofName?]
    rw [if_neg (hother (by decide)), if_neg]
    exact not_or.mpr ⟨hother (by decide), hother (by decide)⟩
  rw [hnone] at h
  exact Bool.noConfusion h

/-- What is written as the help says is as declared. -/
theorem Item.Written.valid {item : Item Opt} (h : item.Written) : item.Valid declaration := by
  cases item with
  | operand text => exact h
  | option opt flag value =>
    cases opt with
    | config =>
      obtain ⟨rfl, hpath, hdashless⟩ := h
      exact ⟨List.mem_cons_self, hdashless, bne_iff_ne.mpr hpath⟩
    | logFormat =>
      obtain ⟨rfl, hname⟩ := h
      refine ⟨List.mem_cons_self, dashless_of_isSome_ofName? hname, ?_⟩
      rw [accepts_logFormat]
      exact hname
    | grant =>
      obtain ⟨rfl | rfl, hdashless⟩ := h
      · exact ⟨List.mem_cons_self, hdashless, rfl⟩
      · exact ⟨List.mem_cons_of_mem _ List.mem_cons_self, hdashless, rfl⟩

/-- Where neither operands nor grants may stand, the others may. -/
theorem isGlobal_of_eq_none {item : Item Opt}
    (h : item.operand? = none ∧ item.value? .grant = none) : item.isGlobal declaration = true := by
  obtain ⟨hoperand, hgrant⟩ := h
  cases item with
  | operand text => cases hoperand
  | option opt flag value =>
    cases opt with
    | config | logFormat => rfl
    | grant => cases hgrant

/-- Every item may stand behind the name of a command that takes grants. -/
theorem isAllowed_of_takesGrants (hverb : verb.takesGrants = true) (item : Item Opt) :
    item.isAllowed declaration verb = true := by
  cases item with
  | operand text => rfl
  | option opt flag value =>
    cases opt with
    | config | logFormat => rfl
    | grant => exact hverb

theorem Says.admits (hverb : verb.takesGrants = true)
    (h : Says before after operand config format) :
    declaration.Admits verb before after operand := by
  refine ⟨?_, ?_, ?_, h.operand, ?_⟩
  · intro item hmem
    exact (h.written item hmem).valid
  · intro item hmem
    exact isGlobal_of_eq_none (h.general item hmem)
  · intro item hmem
    exact isAllowed_of_takesGrants hverb item
  · intro opt hone
    cases opt with
    | config =>
      rw [h.config]
      exact Option.length_toList_le
    | logFormat =>
      have hlength := congrArg List.length h.format
      rw [List.length_map, List.length_map] at hlength
      rw [hlength]
      exact Option.length_toList_le
    | grant => cases hone

/-! ### What is run -/

/-- The log format is the one that is said, or else the default. -/
theorem Says.logFormat (h : Says before after operand config format) :
    (declaration.collect (before ++ after) .logFormat).head?.bind Log.Format.ofName? =
      some (format.getD .json) := by
  have hformat := h.format
  cases format with
  | none =>
    have hvalues : valuesOf .logFormat (before ++ after) = (none : Option String).toList :=
      List.map_eq_nil_iff.mp hformat
    rw [Declaration.collect_one rfl hvalues]
    exact Log.Format.ofName?_json
  | some format =>
    obtain ⟨name, hvalues, hname⟩ := List.map_eq_singleton_iff.mp hformat
    have hvalues : valuesOf .logFormat (before ++ after) = (some name).toList := hvalues
    rw [Declaration.collect_one rfl hvalues, Option.some_or, Option.toList_some, List.head?_cons,
      Option.bind_some, hname, Option.getD_some]

/-- **What the items say is what is run**, wherever the operand and the options stand. -/
theorem ofArguments_commandLine [library : ArgumentLibrary declaration]
    (hlib : ArgumentLibrary.Documented declaration) (hverb : verb.takesGrants = true)
    (h : Says before after operand config format) :
    Invocation.ofArguments (declaration.commandLine verb before after) =
      .ok ⟨config, format.getD .json,
        ⟨verb, operand, (valuesOf .grant after).flatMap (pieces ',')⟩⟩ := by
  have hadmits := h.admits hverb
  have hconfig : declaration.collect (before ++ after) .config = config.toList := by
    rw [Declaration.collect_one rfl h.config, Option.or_none]
  refine bind_eq_ok.mpr ⟨_, hlib.parse_of_admits hadmits, ?_⟩
  simp only [h.logFormat, hconfig, collect_grant hadmits.global, Option.head?_toList]
  rfl

/-! ### Lists of grants -/

theorem pieces_append (x y : String) :
    pieces ',' (x ++ "," ++ y) = pieces ',' x ++ pieces ',' y := by
  rw [← fields_eq_pieces, ← fields_eq_pieces, ← fields_eq_pieces, Text.fields,
    String.toList_append, String.toList_append, List.append_assoc]
  exact (congrArg _ (Text.fieldChars_append ',' x.toList y.toList)).trans List.map_append

theorem dashless_left {x y : String} (h : Dashless (x ++ "," ++ y)) : Dashless x := by
  intro hx
  obtain ⟨cs, hcs⟩ := List.head?_eq_some_iff.mp hx
  refine h ?_
  rw [String.toList_append, String.toList_append, hcs]
  rfl

/-- A list of grants says what its two parts say. -/
theorem Says.cut
    (h : Says before (front ++ .option .grant whole (x ++ "," ++ y) :: back) operand config format)
    (hfirst : first = "-g" ∨ first = "--grant") (hsecond : second = "-g" ∨ second = "--grant")
    (hy : Dashless y) :
    Says before (front ++ .option .grant first x :: .option .grant second y :: back)
      operand config format := by
  obtain ⟨hwritten, hgeneral, hoperand, hconfig, hformat⟩ := h
  simp only [List.forall_mem_append, List.forall_mem_cons] at hwritten
  obtain ⟨hbefore, hfront, ⟨-, hwhole⟩, hback⟩ := hwritten
  refine ⟨?_, hgeneral, ?_, ?_, ?_⟩
  · simp only [List.forall_mem_append, List.forall_mem_cons]
    exact ⟨hbefore, hfront, ⟨hfirst, dashless_left hwhole⟩, ⟨hsecond, hy⟩, hback⟩
  · rw [List.filterMap_append] at hoperand ⊢
    exact hoperand
  · rw [valuesOf_append, valuesOf_append] at hconfig ⊢
    exact hconfig
  · rw [valuesOf_append, valuesOf_append] at hformat ⊢
    exact hformat

/-- **Grants are collected completely and in order, wherever the options stand.** The command line
of a command that takes grants is read as the operand, the global options and the pieces of all
grants, whatever the order in which the kinds are mixed; and a list of grants may be given as two
lists instead. -/
theorem grants_collected_in_order [library : ArgumentLibrary declaration]
    (hlib : ArgumentLibrary.Documented declaration) (hverb : verb.takesGrants = true)
    (h : Says before after operand config format) :
    Invocation.ofArguments (declaration.commandLine verb before after) =
        .ok ⟨config, format.getD .json,
          ⟨verb, operand, (valuesOf .grant after).flatMap (pieces ',')⟩⟩ ∧
      ∀ (front back : List (Item Opt)) (x y whole first second : String),
        after = front ++ .option .grant whole (x ++ "," ++ y) :: back → Dashless y →
        (first = "-g" ∨ first = "--grant") → (second = "-g" ∨ second = "--grant") →
        Invocation.ofArguments (declaration.commandLine verb before
            (front ++ .option .grant first x :: .option .grant second y :: back)) =
          Invocation.ofArguments (declaration.commandLine verb before after) := by
  refine ⟨ofArguments_commandLine hlib hverb h, ?_⟩
  intro front back x y whole first second hafter hy hfirst hsecond
  subst hafter
  rw [ofArguments_commandLine hlib hverb h,
    ofArguments_commandLine hlib hverb (h.cut hfirst hsecond hy)]
  simp [valuesOf_append, valuesOf_option, pieces_append]

end CommandLine

/-! ### The built-in library -/

namespace Builtin

open CommandLine

/-- The built-in library keeps its promises. -/
theorem documented_argumentLibrary : ArgumentLibrary.Documented CommandLine.declaration where
  operand := by
    intro verb text h
    have hadmits : CommandLine.declaration.Admits verb [] [.operand text] text := by
      refine ⟨?_, ?_, ?_, rfl, ?_⟩
      · exact List.forall_mem_singleton.mpr h
      · exact List.forall_mem_nil _
      · exact List.forall_mem_singleton.mpr rfl
      · intro opt _
        exact Nat.zero_le 1
    have hall : ∀ item ∈ ([.operand text] : List (Item Opt)), item.operand?.isSome = true :=
      List.forall_mem_singleton.mpr rfl
    rw [← Declaration.collect_operands hall]
    exact CommandLine.parse_of_admits hadmits
  option := by
    intro verb front back opt flag value text m h hlast hparse
    obtain rfl := Except.ok.inj ((CommandLine.parse_of_admits h.remove).symm.trans hparse)
    refine (CommandLine.parse_of_admits h).trans ?_
    rw [Matches.store, List.nil_append, Declaration.collect_last hlast]
    rfl
  global := by
    intro verb before after opt flag value text h
    refine (CommandLine.parse_of_admits h).trans ?_
    rw [List.append_assoc]
    exact (CommandLine.parse_of_admits h.move).symm

end Builtin

namespace CommandLine

section

open scoped Builtin

/-- Options before and after the name of the command, and one list of grants cut in two. -/
theorem grants_collected_around_operand :
    ArgumentLibrary.Documented declaration ∧
      Invocation.ofArguments ["--log-format", " Text ", "check", "-g", "a,,b", "a && b", "--config",
          "rules.json", "--grant", "c"] =
        .ok ⟨some "rules.json", .compact, ⟨.check, "a && b", ["a", "", "b", "c"]⟩⟩ ∧
      Invocation.ofArguments ["--log-format", " Text ", "check", "-g", "a,", "--grant", "b",
          "a && b", "--config", "rules.json", "--grant", "c"] =
        Invocation.ofArguments ["--log-format", " Text ", "check", "-g", "a,,b", "a && b",
          "--config", "rules.json", "--grant", "c"] := by
  have hsays : Says [.option .logFormat "--log-format" " Text "]
      [.option .grant "-g" "a,,b", .operand "a && b", .option .config "--config" "rules.json",
        .option .grant "--grant" "c"] "a && b" (some "rules.json") (some .compact) := by
    constructor <;> decide +kernel
  have htakes : Verb.check.takesGrants = true := rfl
  obtain ⟨hparse, hcut⟩ :=
    grants_collected_in_order Builtin.documented_argumentLibrary htakes hsays
  refine ⟨Builtin.documented_argumentLibrary, hparse.trans (congrArg Except.ok ?_), ?_⟩
  · decide +kernel
  · exact hcut [] _ "a," "b" "-g" "-g" "--grant" rfl (by decide) (.inl rfl) (.inr rfl)

end

end CommandLine

end AccessRules
