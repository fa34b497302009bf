import AccessRules.Builtin
import AccessRules.Except
import AccessRules.Proofs.DeclaredOptions

/-!
# How the built-in library reads a command line

The built-in library reads a list of items as what the items say, kind by kind, so that how the
kinds are mixed does not matter.

## Main definitions

* `Said.take`, `Said.takeAll`: what has been said with one more item, and with several

## Main statements

* `readLevel_items`: reading items comes to the same as taking them into account one by one
* `exists_takeAll`: what has been said once all items have been taken into account
* `parse_of_admits`: what the items say is read

## Implementation notes

An option with its value in the next argument is settled only when the following item comes, so a
level is described by what *will* have been said: `said.settle pending`, not `said`, is what a step
takes one item further.
-/

namespace AccessRules.CommandLine

/-! ### What an argument looks like -/

/-- The option, among those that the reader knows. -/
def Opt.switch : Opt → Switch
  | config => .config
  | logFormat => .logFormat
  | grant => .grant

/-- Whether an item may stand on a level. -/
def Item.isOn (level : Option Verb) (item : Item Opt) : Bool :=
  match level with
  | none => item.isGlobal declaration
  | some verb => item.isAllowed declaration verb

theorem isAllowed_switch {level : Option Verb} {opt : Opt} {flag value : String}
    (h : (Item.option opt flag value).isOn level = true) : opt.switch.isAllowed level = true := by
  cases level with
  | none =>
    cases opt with
    | config | logFormat => rfl
    | grant => exact h
  | some verb =>
    cases opt with
    | config | logFormat => rfl
    | grant => exact h

/-- A text that does not start with a dash is no option. -/
theorem shapeOf_of_dashless {text : String} (h : Dashless text) : shapeOf text.toList = .plain := by
  rw [Dashless] at h
  cases hcs : text.toList with
  | nil => rfl
  | cons c cs =>
    rw [hcs, List.head?_cons, ne_eq, Option.some.injEq] at h
    rw [shapeOf.eq_def]
    split <;> simp_all

/-- An argument that looks like an option names no command. -/
theorem not_name_of_shapeOf (arg : String) (h : shapeOf arg.toList ≠ .plain) :
    arg ≠ "help" ∧ Verb.ofName? arg = none := by
  refine ⟨?_, ?_⟩
  · rintro rfl
    exact h (by decide)
  · cases hverb : Verb.ofName? arg with
    | none => rfl
    | some verb =>
      have hname : verb.name = arg := by simpa using List.find?_some hverb
      refine absurd ?_ h
      rw [← hname]
      cases verb <;> decide

/-! ### Reading one argument -/

variable {level : Option Verb} {said s t : Said} {pending : Option Pending} {switch : Switch}

theorem readSwitch_none (hvalue : switch.takesValue = true) (hsettle : said.settle pending = .ok s)
    (flagValue : Bool) :
    readSwitch level said pending switch none flagValue = .ok (s, some ⟨switch, none⟩) := by
  rw [readSwitch, if_pos hvalue, hsettle]
  rfl

/-- On a level, the argument starts an option and has no value attached. -/
inductive Starts (level : Option Verb) (arg : String) (switch : Switch) : Prop where
  | named {name : String} (hshape : shapeOf arg.toList = .named name.toList none)
      (hname : Switch.ofName? level name.toList = some switch)
  | lettered {letter : Char} (hshape : shapeOf arg.toList = .lettered letter [])
      (hletter : Switch.ofLetter? level letter = some switch)

theorem Starts.shapeOf_ne_plain {arg : String} (h : Starts level arg switch) :
    shapeOf arg.toList ≠ .plain := by
  intro hplain
  cases h with
  | named hshape hname => cases hplain.symm.trans hshape
  | lettered hshape hletter => cases hplain.symm.trans hshape

/-- A flag starts its option wherever the option may stand. -/
theorem starts_flag {opt : Opt} {flag : String} (hflag : flag ∈ declaration.flags opt)
    (hallowed : opt.switch.isAllowed level = true) : Starts level flag opt.switch := by
  have hswitch : (some opt.switch).filter (Switch.isAllowed level) = some opt.switch :=
    Option.filter_some_pos hallowed
  cases opt with
  | config =>
    obtain rfl := List.mem_singleton.mp hflag
    exact .named (show shapeOf "--config".toList = .named "config".toList none by decide) hswitch
  | logFormat =>
    obtain rfl := List.mem_singleton.mp hflag
    exact .named (show shapeOf "--log-format".toList = .named "log-format".toList none by decide)
      hswitch
  | grant =>
    obtain rfl | hflag := List.mem_cons.mp hflag
    · exact .lettered (show shapeOf "-g".toList = .lettered 'g' [] by decide) hswitch
    · obtain rfl := List.mem_singleton.mp hflag
      exact .named (show shapeOf "--grant".toList = .named "grant".toList none by decide) hswitch

/-- **The argument that starts an option** settles what is pending and waits for the value. -/
theorem readLevel_starts {arg : String} (h : Starts level arg switch)
    (hvalue : switch.takesValue = true) (hsettle : said.settle pending = .ok s)
    (args : List String) :
    readLevel level said pending (arg :: args) =
      readLevel level s (some ⟨switch, none⟩) args := by
  obtain ⟨hhelp, hverb⟩ := not_name_of_shapeOf arg h.shapeOf_ne_plain
  have hread : readSwitch level said pending switch none false = .ok (s, some ⟨switch, none⟩) :=
    readSwitch_none hvalue hsettle false
  rw [readLevel.eq_def]
  simp only [hhelp, hverb, decide_false, Bool.and_false, Bool.false_eq_true, if_false, ite_self]
  cases h with
  | named hshape hname =>
    simp only [hshape, hname]
    exact congrArg (· >>= _) hread
  | lettered hshape hletter =>
    simp only [hshape, hletter]
    exact congrArg (· >>= _) hread

/-- **The value of an option** waits for being settled. -/
theorem readLevel_value {value : String} (h : Dashless value) (switch : Switch)
    (args : List String) :
    readLevel level said (some ⟨switch, none⟩) (value :: args) =
      readLevel level said (some ⟨switch, some value⟩) args := by
  rw [readLevel.eq_def]
  simp [awaitsValue, shapeOf_of_dashless h]

/-- **The operand of a command** settles what is pending. -/
theorem readLevel_operand {verb : Verb} {text : String} (h : Dashless text)
    (hpending : awaitsValue pending = false) (hoperand : said.operand = none)
    (hsettle : said.settle pending = .ok s) (args : List String) :
    readLevel (some verb) said pending (text :: args) =
      readLevel (some verb) { s with operand := some text } none args := by
  have hread : readOperand (some verb) said pending text false =
      .ok { s with operand := some text } := by
    simp only [readOperand, hoperand, hsettle]
    rfl
  rw [readLevel.eq_def]
  simp only [Option.isNone_some, Bool.false_and, Bool.false_eq_true, if_false,
    shapeOf_of_dashless h]
  split
  · cases hpending
  · exact congrArg (· >>= _) hread

/-- **The name of a command** ends the level before it, and settles nothing. -/
theorem readLevel_name (hpending : awaitsValue pending = false) (verb : Verb)
    (args : List String) :
    readLevel none said pending (verb.name :: args) =
      .ok ⟨said, pending, some (verb, args)⟩ := by
  have hhelp : verb.name ≠ "help" := by cases verb <;> decide
  have hverb : Verb.ofName? verb.name = some verb := by cases verb <;> decide +kernel
  rw [readLevel.eq_def]
  simp only [hpending, hhelp, hverb, decide_false, Bool.and_false, Bool.false_eq_true, if_false,
    Option.isNone_none, Bool.not_false, Bool.and_self, if_true]

/-! ### Taking items into account -/

theorem add_config_eq_ok {value : String} :
    said.add .config value = .ok s ↔
      said.config = none ∧ value ≠ "" ∧ s = { said with config := some value } := by
  rw [Said.add]
  cases said.config with
  | some path => simp
  | none => by_cases hvalue : value = "" <;> simp [hvalue, eq_comm]

theorem add_logFormat_eq_ok {value : String} :
    said.add .logFormat value = .ok s ↔
      said.logFormat = none ∧ (Log.Format.ofName? value).isSome ∧
        s = { said with logFormat := some value } := by
  rw [Said.add]
  cases said.logFormat with
  | some name => simp
  | none => cases Log.Format.ofName? value <;> simp [eq_comm]

/-- An option does not say an operand. -/
theorem operand_of_add {value : String} (h : said.add switch value = .ok s) :
    s.operand = said.operand := by
  cases switch with
  | config =>
    obtain ⟨-, -, rfl⟩ := add_config_eq_ok.mp h
    rfl
  | logFormat =>
    obtain ⟨-, -, rfl⟩ := add_logFormat_eq_ok.mp h
    rfl
  | grant | help | version => exact Except.ok.inj h ▸ rfl

/-- Settling does not say an operand. -/
theorem operand_of_settle (h : said.settle pending = .ok s) : s.operand = said.operand := by
  rw [Said.settle.eq_def] at h
  split at h
  · exact Except.ok.inj h ▸ rfl
  · cases h
  · exact operand_of_add h

/-- Take an item into account. -/
def Said.take (said : Said) : Item Opt → Except Refusal Said
  | .operand text =>
    if said.operand.isSome then .error .unknownArgument
    else .ok { said with operand := some text }
  | .option opt _ value => said.add opt.switch value

/-- Take items into account, one by one. -/
def Said.takeAll (said : Said) : List (Item Opt) → Except Refusal Said
  | [] => .ok said
  | item :: items => said.take item >>= fun said => said.takeAll items

/-- **Reading an item is to take it into account**, up to what is still pending. -/
theorem readLevel_item {item : Item Opt} (hvalid : item.Valid declaration)
    (hallowed : item.isOn level = true)
    (hpending : awaitsValue pending = false) (hsettle : said.settle pending = .ok s)
    (htake : s.take item = .ok t) (rest : List String) :
    ∃ said' pending', awaitsValue pending' = false ∧ said'.settle pending' = .ok t ∧
      readLevel level said pending (item.args ++ rest) = readLevel level said' pending' rest := by
  cases item with
  | operand text =>
    -- The operand settles what is pending, and nothing is pending after it.
    cases level with
    | none => exact Bool.noConfusion hallowed
    | some verb =>
      rw [Said.take] at htake
      split at htake
      · cases htake
      · next hnone =>
        have hoperand : said.operand = none := by
          rw [← operand_of_settle hsettle]
          exact Option.not_isSome_iff_eq_none.mp hnone
        refine ⟨{ s with operand := some text }, none, rfl, htake, ?_⟩
        exact readLevel_operand hvalid hpending hoperand hsettle rest
  | option opt flag value =>
    -- The option settles what is pending, and is itself left to be settled.
    obtain ⟨hflag, hdashless, -⟩ := hvalid
    refine ⟨s, some ⟨opt.switch, some value⟩, rfl, htake, ?_⟩
    have hvalue : opt.switch.takesValue = true := by cases opt <;> rfl
    rw [Item.args, List.cons_append, List.singleton_append,
      readLevel_starts (starts_flag hflag (isAllowed_switch hallowed)) hvalue hsettle,
      readLevel_value hdashless]

/-- **Reading items is to take them into account one by one**, up to what is still pending. -/
theorem readLevel_items {items : List (Item Opt)} (hvalid : ∀ item ∈ items, item.Valid declaration)
    (hallowed : ∀ item ∈ items, item.isOn level = true)
    (hpending : awaitsValue pending = false) (hsettle : said.settle pending = .ok s)
    (htake : s.takeAll items = .ok t) (rest : List String) :
    ∃ said' pending', awaitsValue pending' = false ∧ said'.settle pending' = .ok t ∧
      readLevel level said pending (items.flatMap Item.args ++ rest) =
        readLevel level said' pending' rest := by
  induction items generalizing said pending s with
  | nil => exact ⟨said, pending, hpending, Except.ok.inj htake ▸ hsettle, rfl⟩
  | cons item items ih =>
    rw [List.forall_mem_cons] at hvalid hallowed
    obtain ⟨s', hitem, hitems⟩ := bind_eq_ok.mp htake
    obtain ⟨said₁, pending₁, hpending₁, hsettle₁, hread₁⟩ := readLevel_item hvalid.1 hallowed.1
      hpending hsettle hitem (items.flatMap Item.args ++ rest)
    obtain ⟨said₂, pending₂, hpending₂, hsettle₂, hread₂⟩ := ih hvalid.2 hallowed.2
      hpending₁ hsettle₁ hitems
    refine ⟨said₂, pending₂, hpending₂, hsettle₂, ?_⟩
    rw [List.flatMap_cons, List.append_assoc, hread₁, hread₂]

/-! ### What has been said in the end -/

/-- With these items, nothing is said twice that may be said once. -/
structure Said.HasRoom (said : Said) (items : List (Item Opt)) : Prop where
  operand : (said.operand.toList ++ items.filterMap Item.operand?).length ≤ 1
  config : (said.config.toList ++ valuesOf .config items).length ≤ 1
  logFormat : (said.logFormat.toList ++ valuesOf .logFormat items).length ≤ 1

/-- What is known in `t` is what is known in `s`, and what the items say, in order. -/
structure Said.Collects (s : Said) (items : List (Item Opt)) (t : Said) : Prop where
  operand : t.operand.toList = s.operand.toList ++ items.filterMap Item.operand?
  config : t.config.toList = s.config.toList ++ valuesOf .config items
  logFormat : t.logFormat.toList = s.logFormat.toList ++ valuesOf .logFormat items
  granted : t.granted = s.granted ++ (valuesOf .grant items).flatMap (pieces ',')

theorem eq_none_of_length_le {α : Type} {o : Option α} {a : α}
    (h : (o.toList ++ [a]).length ≤ 1) : o = none := by
  cases o with
  | none => rfl
  | some b => simp at h

theorem fields_eq_pieces (value : String) : Text.fields ',' value = pieces ',' value := by
  rw [Text.fields, Text.fieldChars_eq_splitOn, pieces]

/-- **A valid item can be taken into account** where there is room for it. -/
theorem exists_take {item : Item Opt} (hvalid : item.Valid declaration)
    (hroom : said.HasRoom [item]) :
    ∃ t, said.take item = .ok t ∧ said.Collects [item] t := by
  cases item with
  | operand text =>
    have hnone : said.operand = none := eq_none_of_length_le hroom.operand
    refine ⟨{ said with operand := some text }, by simp [Said.take, hnone], ?_⟩
    constructor <;> simp [hnone, Item.operand?, valuesOf, Item.value?]
  | option opt flag value =>
    obtain ⟨-, -, haccepts⟩ := hvalid
    cases opt with
    | grant =>
      refine ⟨{ said with granted := said.granted ++ Text.fields ',' value }, rfl, ?_⟩
      constructor <;> simp [fields_eq_pieces, Item.operand?, valuesOf, Item.value?]
    | config =>
      have hnone : said.config = none := eq_none_of_length_le hroom.config
      have hadd : said.add .config value = .ok { said with config := some value } :=
        add_config_eq_ok.mpr ⟨hnone, bne_iff_ne.mp haccepts, rfl⟩
      refine ⟨_, hadd, ?_⟩
      constructor <;> simp [hnone, Item.operand?, valuesOf, Item.value?]
    | logFormat =>
      have hnone : said.logFormat = none := eq_none_of_length_le hroom.logFormat
      rw [accepts_logFormat] at haccepts
      have hadd : said.add .logFormat value = .ok { said with logFormat := some value } :=
        add_logFormat_eq_ok.mpr ⟨hnone, haccepts, rfl⟩
      refine ⟨_, hadd, ?_⟩
      constructor <;> simp [hnone, Item.operand?, valuesOf, Item.value?]

theorem Said.HasRoom.of_sublist {items items' : List (Item Opt)} (h : said.HasRoom items)
    (hsub : items'.Sublist items) : said.HasRoom items' := by
  constructor
  · exact Nat.le_trans ((hsub.filterMap _).append_left _).length_le h.operand
  · exact Nat.le_trans ((hsub.filterMap _).append_left _).length_le h.config
  · exact Nat.le_trans ((hsub.filterMap _).append_left _).length_le h.logFormat

/-- What the first items took is left out of the room for the others. -/
theorem Said.HasRoom.of_collects {items items' : List (Item Opt)}
    (h : said.HasRoom (items ++ items')) (ht : said.Collects items t) : t.HasRoom items' := by
  constructor
  · rw [ht.operand, List.append_assoc, ← List.filterMap_append]
    exact h.operand
  · rw [ht.config, List.append_assoc, ← valuesOf_append]
    exact h.config
  · rw [ht.logFormat, List.append_assoc, ← valuesOf_append]
    exact h.logFormat

theorem Said.Collects.append {items items' : List (Item Opt)} (h : said.Collects items s)
    (h' : s.Collects items' t) : said.Collects (items ++ items') t := by
  constructor
  · rw [h'.operand, h.operand, List.filterMap_append, List.append_assoc]
  · rw [h'.config, h.config, valuesOf_append, List.append_assoc]
  · rw [h'.logFormat, h.logFormat, valuesOf_append, List.append_assoc]
  · rw [h'.granted, h.granted, valuesOf_append, List.flatMap_append, List.append_assoc]

/-- **Valid items can be taken into account** where there is room for them. -/
theorem exists_takeAll {items : List (Item Opt)} (hvalid : ∀ item ∈ items, item.Valid declaration)
    (hroom : said.HasRoom items) :
    ∃ t, said.takeAll items = .ok t ∧ said.Collects items t := by
  induction items generalizing said with
  | nil => exact ⟨said, rfl, by constructor <;> simp [valuesOf]⟩
  | cons item items ih =>
    rw [List.forall_mem_cons] at hvalid
    obtain ⟨s, hitem, hcollects⟩ := exists_take hvalid.1 (hroom.of_sublist (by simp))
    obtain ⟨t, hitems, hcollects'⟩ := ih hvalid.2 (Said.HasRoom.of_collects hroom hcollects)
    exact ⟨t, bind_eq_ok.mpr ⟨s, hitem, hitems⟩, hcollects.append hcollects'⟩

/-! ### Command lines -/

variable {verb : Verb} {before after : List (Item Opt)} {operand : String}

/-- There is no operand before the name of a command. -/
theorem operands_of_global (h : ∀ item ∈ before, item.isGlobal declaration = true) :
    before.filterMap Item.operand? = [] := by
  rw [List.filterMap_eq_nil_iff]
  intro item hmem
  cases item with
  | operand text => exact Bool.noConfusion (h _ hmem)
  | option opt flag value => rfl

theorem hasRoom_of_admits (h : declaration.Admits verb before after operand) :
    Said.nothing.HasRoom (before ++ after) := by
  constructor
  · rw [List.filterMap_append, operands_of_global h.global, h.operand]
    exact Nat.le_refl 1
  · exact h.once .config rfl
  · exact h.once .logFormat rfl

/-- Of what may be said once, the later is what was said, if anything was. -/
theorem toList_or {α : Type} {o₁ o₂ : Option α} {as : List α}
    (h : o₁.toList ++ o₂.toList = as) (hlength : as.length ≤ 1) : (o₂.or o₁).toList = as := by
  subst h
  cases o₁ with
  | none => rw [Option.or_none]; rfl
  | some a =>
    cases o₂ with
    | none => rfl
    | some b => simp at hlength

/-- What is read after the name of a command. -/
theorem readCommand_of_takeAll {items : List (Item Opt)}
    (hvalid : ∀ item ∈ items, item.Valid declaration)
    (hallowed : ∀ item ∈ items, item.isAllowed declaration verb = true)
    (htake : Said.nothing.takeAll items = .ok t) (hoperand : t.operand = some operand) :
    readCommand verb (items.flatMap Item.args) = .ok (t, operand) := by
  have hnothing : Said.nothing.settle none = .ok .nothing := rfl
  have hon : ∀ item ∈ items, item.isOn (some verb) = true := hallowed
  obtain ⟨said, pending, -, hsettle, hread⟩ := readLevel_items hvalid hon rfl hnothing htake []
  rw [List.append_nil] at hread
  have hlevel : readLevel (some verb) .nothing none (items.flatMap Item.args) =
      .ok ⟨said, pending, none⟩ := hread
  refine bind_eq_ok.mpr ⟨_, hlevel, bind_eq_ok.mpr ⟨t, hsettle, ?_⟩⟩
  simp only [hoperand]
  rfl

/-- Grants stand behind the name of the command only. -/
theorem collect_grant (h : ∀ item ∈ before, item.isGlobal declaration = true) :
    declaration.collect (before ++ after) .grant =
      (valuesOf .grant after).flatMap (pieces ',') := by
  have hnone : valuesOf .grant before = [] := valuesOf_eq_nil_of_global h rfl
  rw [Declaration.collect_many rfl, valuesOf_append, hnone, List.nil_append]

/-- What has been said on the two levels is what the items say. -/
theorem values_eq_collect {inner outer : Said} (h : declaration.Admits verb before after operand)
    (houter : Said.nothing.Collects before outer) (hinner : Said.nothing.Collects after inner) :
    inner.values outer = declaration.collect (before ++ after) := by
  funext opt
  cases opt with
  | config =>
    have hsaid : (inner.config.or outer.config).toList = valuesOf .config (before ++ after) := by
      refine toList_or ?_ (h.once .config rfl)
      rw [houter.config, hinner.config, valuesOf_append]
      rfl
    rw [Declaration.collect_one rfl hsaid.symm, Option.or_none]
    rfl
  | logFormat =>
    have hsaid : (inner.logFormat.or outer.logFormat).toList =
        valuesOf .logFormat (before ++ after) := by
      refine toList_or ?_ (h.once .logFormat rfl)
      rw [houter.logFormat, hinner.logFormat, valuesOf_append]
      rfl
    rw [Declaration.collect_one rfl hsaid.symm]
    show [(inner.logFormat.or outer.logFormat).getD "json"] = _
    cases inner.logFormat.or outer.logFormat <;> rfl
  | grant =>
    rw [collect_grant h.global]
    exact hinner.granted

/-- **What the items say is read**, wherever the operand and the options stand. -/
theorem parse_of_admits (h : declaration.Admits verb before after operand) :
    parse (declaration.commandLine verb before after) =
      .ok ⟨verb, operand, declaration.collect (before ++ after)⟩ := by
  -- Each level is read on its own; what is pending before the name is settled last.
  obtain ⟨hbefore, hafter⟩ := List.forall_mem_append.mp h.valid
  obtain ⟨outer, houter, hcollects⟩ :=
    exists_takeAll hbefore ((hasRoom_of_admits h).of_sublist (List.sublist_append_left _ _))
  obtain ⟨inner, hinner, hcollects'⟩ :=
    exists_takeAll hafter ((hasRoom_of_admits h).of_sublist (List.sublist_append_right _ _))
  have hoperand : inner.operand = some operand := by
    rw [← Option.toList_eq_singleton_iff, hcollects'.operand, h.operand]
    rfl
  have hcommand := readCommand_of_takeAll hafter h.allowed hinner hoperand
  have hnothing : Said.nothing.settle none = .ok .nothing := rfl
  have hon : ∀ item ∈ before, item.isOn none = true := h.global
  obtain ⟨said, pending, hpending, hsettle, hread⟩ := readLevel_items hbefore hon
    rfl hnothing houter (verb.name :: after.flatMap Item.args)
  rw [readLevel_name hpending] at hread
  rw [← values_eq_collect h hcollects hcollects']
  exact bind_eq_ok.mpr ⟨_, hread, bind_eq_ok.mpr ⟨_, hcommand, bind_eq_ok.mpr ⟨_, hsettle, rfl⟩⟩⟩

end AccessRules.CommandLine
