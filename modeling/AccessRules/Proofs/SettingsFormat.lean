import AccessRules.Builtin
import AccessRules.Proofs.SettingsDocuments
import AccessRules.Settings.OfJson

/-!
# What a document of settings sets

A document sets the settings that it names and no others, in whichever order its members stand, and
the others have their defaults. This is so for every library that reads objects member by member and
passes over members with other names.

## Main definitions

* `JsonLibrary.SettingsFormat`: what a library promises about documents of settings
* `Settings.overridesOf`: the values that members set

## Main statements

* `toOption_readOverrides`: an object is read as its members come to, unless one is named twice
* `readOverrides_items`: an array is read as its items come to
* `Settings.document_sets_named`: what a document of settings is read as
* `Builtin.settingsFormat`: the built-in library keeps the promises

## Implementation notes

A promise is about one member in front of an object, or one item at the end of an array, whose
reading it relates to that of the document without it. What the message says where a document is
refused is not promised, so the readings are compared without it.
-/

namespace AccessRules

open Settings (Member ObjectText MembersText ArrayText ItemsText named)

/-- What a library promises about documents of settings. -/
structure JsonLibrary.SettingsFormat [JsonLibrary] : Prop where
  /-- An object without members sets nothing. -/
  empty {text : String} (h : ObjectText [] text.toList) : readOverrides text = .ok .none
  /-- A member with another name is passed over. -/
  other {members : List Member} {text text' : String}
    (h : ObjectText (.other :: members) text.toList) (h' : ObjectText members text'.toList) :
    (readOverrides text).toOption = (readOverrides text').toOption
  /-- A member with the name of a setting sets it. -/
  sets {setting : Setting} {value : UInt64} {members : List Member} {text text' : String}
    (hnew : setting ∉ named members) (h : ObjectText (.sets setting value :: members) text.toList)
    (h' : ObjectText members text'.toList) :
    (readOverrides text).toOption = (readOverrides text').toOption.map (·.set setting value)
  /-- A setting that is named again is refused. -/
  duplicate {setting : Setting} {value : UInt64} {members : List Member} {text : String}
    (hdup : setting ∈ named members) (h : ObjectText (.sets setting value :: members) text.toList) :
    ∃ message, readOverrides text = .error message
  /-- An array without items sets nothing. -/
  emptyArray {text : String} (h : ArrayText [] text.toList) : readOverrides text = .ok .none
  /-- One more item of an array sets the next setting. -/
  item {value : Setting → UInt64} {settings more : List Setting} {setting : Setting}
    {text text' : String} (hall : Setting.all = settings ++ setting :: more)
    (h : ArrayText ((settings ++ [setting]).map value) text.toList)
    (h' : ArrayText (settings.map value) text'.toList) :
    (readOverrides text).toOption =
      (readOverrides text').toOption.map (·.set setting (value setting))
  /-- Settings are written as an object with a member for each of them. -/
  written (settings : Settings) :
    ObjectText (Setting.all.map fun setting => .sets setting (settings.get setting))
      (render settings.toJson).toList

namespace Settings

/-! ### What members come to -/

theorem nodup_named_sets {setting : Setting} {value : UInt64} {members : List Member} :
    (named (.sets setting value :: members)).Nodup ↔
      setting ∉ named members ∧ (named members).Nodup :=
  List.nodup_cons

/-- What a member adds to the values that other members set. -/
def Member.apply : Member → Overrides → Overrides
  | .sets setting value, o => o.set setting value
  | .other, o => o

/-- The values that members set. -/
def overridesOf (members : List Member) : Overrides :=
  members.foldr Member.apply .none

theorem overridesOf_of_notMem {members : List Member} {setting : Setting}
    (h : setting ∉ named members) : overridesOf members setting = none := by
  induction members with
  | nil => rfl
  | cons m members ih =>
    cases m with
    | other => exact ih h
    | sets first value =>
      rw [named_sets, List.mem_cons, not_or] at h
      exact (if_neg h.1).trans (ih h.2)

theorem overridesOf_of_mem {members : List Member} (hnodup : (named members).Nodup)
    {setting : Setting} {value : UInt64} (h : .sets setting value ∈ members) :
    overridesOf members setting = some value := by
  induction members with
  | nil => cases h
  | cons m members ih =>
    cases m with
    | other =>
      rcases List.mem_cons.mp h with heq | h
      · cases heq
      · exact ih hnodup h
    | sets first count =>
      obtain ⟨hnew, hrest⟩ := nodup_named_sets.mp hnodup
      rcases List.mem_cons.mp h with heq | h
      · cases heq
        exact if_pos rfl
      · have hnamed : setting ∈ named members := List.mem_filterMap.mpr ⟨_, h, rfl⟩
        have hne : setting ≠ first := fun heq => hnew (heq ▸ hnamed)
        exact (if_neg hne).trans (ih hrest h)

/-- What is set has its value. -/
theorem get_ofOverrides_of_eq_some {o : Overrides} {setting : Setting} {value : UInt64}
    (h : o setting = some value) : (ofOverrides o).get setting = value := by
  rw [ofOverrides, get_ofValues, h, Option.getD_some]

/-- What is not set has its default. -/
theorem get_ofOverrides_of_eq_none {o : Overrides} {setting : Setting} (h : o setting = none) :
    (ofOverrides o).get setting = setting.default := by
  rw [ofOverrides, get_ofValues, h, Option.getD_none]

/-- A member that sets something new, in front of the members that are read already. -/
theorem map_overridesOf {setting : Setting} {value : UInt64} {members : List Member}
    (hnew : setting ∉ named members) :
    Option.map (·.set setting value)
        (if (named members).Nodup then some (overridesOf members) else none) =
      if (named (.sets setting value :: members)).Nodup then
        some (overridesOf (.sets setting value :: members)) else none := by
  by_cases hnodup : (named members).Nodup
  · rw [if_pos hnodup, if_pos (nodup_named_sets.mpr ⟨hnew, hnodup⟩)]
    rfl
  · rw [if_neg hnodup, if_neg fun hboth => hnodup (nodup_named_sets.mp hboth).2]
    rfl

/-! ### Documents without a part -/

/-- An object without its first member is an object. -/
theorem ObjectText.exists_tail {m : Member} {members : List Member} {cs : List Char}
    (h : ObjectText (m :: members) cs) : ∃ text : String, ObjectText members text.toList := by
  cases h with
  | members _ h _ =>
    cases h with
    | last =>
      refine ⟨"\x7b\x7d", ?_⟩
      exact .empty Json.blanks_nil Json.blanks_nil Json.blanks_nil
    | more _ hs =>
      have hobject := ObjectText.members Json.blanks_nil hs Json.blanks_nil
      rw [← String.toList_ofList (l := _ ++ _ :: _)] at hobject
      exact ⟨_, hobject⟩

/-- All counts can be written as the items of an array. -/
theorem exists_itemsText (value : UInt64) (values : List UInt64) :
    ∃ cs, ItemsText (value :: values) cs := by
  induction values generalizing value with
  | nil => exact ⟨_, .last Json.blanks_nil Json.blanks_nil⟩
  | cons next values ih =>
    obtain ⟨cs, h⟩ := ih next
    exact ⟨_, .more Json.blanks_nil Json.blanks_nil h⟩

theorem exists_arrayText (values : List UInt64) :
    ∃ text : String, ArrayText values text.toList := by
  cases values with
  | nil => exact ⟨"[]", .empty Json.blanks_nil Json.blanks_nil Json.blanks_nil⟩
  | cons value values =>
    obtain ⟨cs, h⟩ := exists_itemsText value values
    have harray := ArrayText.items Json.blanks_nil h Json.blanks_nil
    rw [← String.toList_ofList (l := _ ++ _ :: _)] at harray
    exact ⟨_, harray⟩

/-! ### Whole documents -/

theorem eq_ok_of_toOption {ε α : Type} {r : Except ε α} {a : α} (h : r.toOption = some a) :
    r = .ok a := by
  cases r with
  | error e => cases h
  | ok b => exact congrArg Except.ok (Option.some.inj h)

theorem exists_eq_error_of_toOption {ε α : Type} {r : Except ε α} (h : r.toOption = none) :
    ∃ e, r = .error e := by
  cases r with
  | error e => exact ⟨e, rfl⟩
  | ok a => cases h

section

open JsonLibrary (SettingsFormat readOverrides)

variable [JsonLibrary] {members : List Member} {text : String}

/-- **An object is read as its members come to**, unless they name a setting twice. -/
theorem toOption_readOverrides (hlib : SettingsFormat) (h : ObjectText members text.toList) :
    (readOverrides text).toOption =
      if (named members).Nodup then some (overridesOf members) else none := by
  induction members generalizing text with
  | nil =>
    rw [hlib.empty h]
    rfl
  | cons m members ih =>
    obtain ⟨text', htail⟩ := h.exists_tail
    cases m with
    | other =>
      rw [hlib.other h htail, ih htail]
      rfl
    | sets setting value =>
      by_cases hmem : setting ∈ named members
      · obtain ⟨message, hread⟩ := hlib.duplicate hmem h
        rw [hread, if_neg fun hnodup => (nodup_named_sets.mp hnodup).1 hmem]
        rfl
      · rw [hlib.sets hmem h htail, ih htail, map_overridesOf hmem]

/-- **An array is read as its items come to**: the first settings have their values. -/
theorem readOverrides_items (hlib : SettingsFormat) {value : Setting → UInt64}
    {settings more : List Setting} (hall : Setting.all = settings ++ more)
    (h : ArrayText (settings.map value) text.toList) :
    readOverrides text = .ok (Overrides.setAll .none settings value) := by
  induction settings using List.reverseRecOn generalizing more text with
  | nil => exact hlib.emptyArray h
  | append_singleton settings setting ih =>
    rw [List.append_assoc, List.singleton_append] at hall
    obtain ⟨text', hfront⟩ := exists_arrayText (settings.map value)
    refine eq_ok_of_toOption ?_
    rw [hlib.item hall h hfront, ih hall hfront, ← Overrides.set_setAll]
    rfl

theorem ofJson_of_nodup (hlib : SettingsFormat) (h : ObjectText members text.toList)
    (hnodup : (named members).Nodup) : ofJson text = .ok (ofOverrides (overridesOf members)) := by
  have hread : readOverrides text = .ok (overridesOf members) := by
    refine eq_ok_of_toOption ?_
    rw [toOption_readOverrides hlib h, if_pos hnodup]
  rw [ofJson, hread]
  rfl

theorem exists_ofJson_eq_error (hlib : SettingsFormat) (h : ObjectText members text.toList)
    (hdup : ¬ (named members).Nodup) : ∃ message, ofJson text = .error message := by
  have hread : (readOverrides text).toOption = none := by
    rw [toOption_readOverrides hlib h, if_neg hdup]
  obtain ⟨message, hread⟩ := exists_eq_error_of_toOption hread
  exact ⟨message, by rw [ofJson, hread]; rfl⟩

/-- **Reading undoes writing**, for all settings. -/
theorem ofJson_render (hlib : SettingsFormat) (settings : Settings) :
    ofJson (JsonLibrary.render settings.toJson) = .ok settings := by
  let written : List Member := Setting.all.map fun setting => .sets setting (settings.get setting)
  have hnamed : named written = Setting.all := rfl
  have hnodup : (named written).Nodup := by
    rw [hnamed]
    decide
  rw [ofJson_of_nodup hlib (hlib.written settings) hnodup]
  refine congrArg Except.ok (ext_get fun setting => ?_)
  have hmem : .sets setting (settings.get setting) ∈ written :=
    List.mem_map_of_mem setting.mem_all
  exact get_ofOverrides_of_eq_some (overridesOf_of_mem hnodup hmem)

/-- An array of all counts is read as the settings with these counts. -/
theorem ofJson_array (hlib : SettingsFormat) {settings : Settings}
    (h : ArrayText (Setting.all.map settings.get) text.toList) : ofJson text = .ok settings := by
  rw [ofJson, readOverrides_items hlib (List.append_nil Setting.all).symm h]
  refine congrArg Except.ok (ext_get fun setting => ?_)
  exact get_ofOverrides_of_eq_some (if_pos setting.mem_all)

/-- **A document sets the settings that it names, and only those.** An object of well-formed
members, in any order and with any blanks, that names no setting twice is read as the settings that
it sets, with the default for those that no member names; members with other names have no effect,
whatever their values are and however often they are repeated. If a setting is named twice, the
document is refused. Settings that are written out are read back, from the object that is written
for them and from every array of their three counts. -/
theorem document_sets_named (hlib : SettingsFormat) :
    (∀ members text, ObjectText members text.toList → (named members).Nodup →
      ∃ settings, ofJson text = .ok settings ∧
        (∀ setting value, .sets setting value ∈ members → settings.get setting = value) ∧
        ∀ setting, setting ∉ named members → settings.get setting = setting.default) ∧
    (∀ members text, ObjectText members text.toList → ¬ (named members).Nodup →
      ∃ message, ofJson text = .error message) ∧
    (∀ settings : Settings, ofJson (JsonLibrary.render settings.toJson) = .ok settings) ∧
    ∀ (settings : Settings) text,
      ArrayText [settings.cacheCapacity, settings.maxLength, settings.maxNesting] text.toList →
      ofJson text = .ok settings := by
  refine ⟨?_, ?_, ?_, ?_⟩
  · intro members text h hnodup
    refine ⟨_, ofJson_of_nodup hlib h hnodup, ?_, ?_⟩
    · intro setting value hmem
      exact get_ofOverrides_of_eq_some (overridesOf_of_mem hnodup hmem)
    · intro setting hnot
      exact get_ofOverrides_of_eq_none (overridesOf_of_notMem hnot)
  · intro members text h hdup
    exact exists_ofJson_eq_error hlib h hdup
  · intro settings
    exact ofJson_render hlib settings
  · intro settings text h
    exact ofJson_array hlib h

end

end Settings

/-! ### The built-in library -/

section

open Settings
open scoped Builtin

namespace Builtin

theorem readOverrides_of_document {text : String} {o : Overrides}
    (h : overridesOfDocument text = .ok o) : JsonLibrary.readOverrides text = .ok o := by
  change (overridesOfDocument text).mapError _ = _
  rw [h]
  rfl

/-- The built-in library reads an object as its members come to. -/
theorem readOverrides_members {members : List Member} {text : String}
    (h : ObjectText members text.toList) :
    (JsonLibrary.readOverrides text).toOption =
      if (named members).Nodup then some (overridesOf members) else none := by
  by_cases hnodup : (named members).Nodup
  · obtain ⟨o, hread, hset, hrest⟩ := h.exists_overrides_eq hnodup
    have hsame : o = overridesOf members := by
      funext setting
      by_cases hmem : setting ∈ named members
      · obtain ⟨m, hm, hsetting⟩ := List.mem_filterMap.mp hmem
        cases m with
        | other => cases hsetting
        | sets first value =>
          obtain rfl : first = setting := Option.some.inj hsetting
          rw [hset first value hm, overridesOf_of_mem hnodup hm]
      · rw [hrest setting hmem, overridesOf_of_notMem hmem]
    rw [readOverrides_of_document hread, hsame, if_pos hnodup]
    rfl
  · obtain ⟨setting, left, -, hread⟩ := h.exists_overrides_eq_error hnodup
    rw [if_neg hnodup]
    change ((overridesOfDocument text).mapError _).toOption = none
    rw [hread]
    rfl

/-- **The built-in library keeps the promises.** -/
theorem settingsFormat : JsonLibrary.SettingsFormat where
  empty h := eq_ok_of_toOption (readOverrides_members h)
  other h h' := by
    rw [readOverrides_members h, readOverrides_members h']
    rfl
  sets hnew h h' := by
    rw [readOverrides_members h, readOverrides_members h', map_overridesOf hnew]
  duplicate hdup h := by
    refine exists_eq_error_of_toOption ?_
    rw [readOverrides_members h, if_neg fun hnodup => (nodup_named_sets.mp hnodup).1 hdup]
  emptyArray h := by
    have harray : ArrayText (([] : List Setting).map Setting.default) _ := h
    exact readOverrides_of_document (harray.overrides_eq (List.nil_append Setting.all).symm)
  item {value settings more setting _ _} hall h h' := by
    have hfront := readOverrides_of_document (h'.overrides_eq hall)
    rw [← List.singleton_append, ← List.append_assoc] at hall
    rw [hfront, readOverrides_of_document (h.overrides_eq hall), ← Overrides.set_setAll]
    rfl
  written := objectText_toJson

end Builtin

/-- A member whose value has a quote and a bracket in a key of its own, before a member that sets
something; a setting that is named twice; and an array. -/
theorem Settings.document_sets_named_nested_value :
    JsonLibrary.SettingsFormat ∧
    ofJson " \x7b\"x\":\x7b\"a\\\"]\":[-1e3]\x7d , \"max_nesting_depth\": 7\x7d" =
      .ok ⟨256, 4096, 7⟩ ∧
    (∃ message, ofJson
      "\x7b\"max_nesting_depth\":7,\"max_nesting_depth\":8\x7d" = .error message) ∧
    ofJson "[0, 4096 ,7]" = .ok ⟨0, 4096, 7⟩ := by
  have hspace : Json.Blanks [' '] := List.all_eq_true.mp (by decide)
  obtain ⟨hobjects, hduplicates, -, harrays⟩ := document_sets_named Builtin.settingsFormat
  refine ⟨Builtin.settingsFormat, ?_, ?_, ?_⟩
  · have hnumber : Json.NumberText ['-', '1', 'e', '3'] :=
      @Json.NumberText.mk ['-'] ['1'] [] ['e', '3'] (.inr rfl)
        ⟨by simp, List.all_eq_true.mp (by decide)⟩ (by simp) .none
        (@Json.Exponent.some 'e' [] ['3'] (.inl rfl) (.inl rfl)
          ⟨by simp, List.all_eq_true.mp (by decide)⟩)
    have hkey : Json.StringText ['a', '\\', '"', ']'] :=
      .plain (by decide) (.short (c := '"') (by decide) (.plain (by decide) .nil))
    have harray := Json.WellFormed.bracketed
      (.last .item Json.blanks_nil (.scalar (.number hnumber)) Json.blanks_nil)
    have hvalue := Json.WellFormed.bracketed (.last (.member Json.blanks_nil hkey Json.blanks_nil)
      Json.blanks_nil harray Json.blanks_nil)
    have hother := Member.Writes.mk (m := .other) Json.blanks_nil (Json.literal_encodeChars ['x'])
      (fun setting => by cases setting <;> decide) Json.blanks_nil Json.blanks_nil hvalue hspace
    have hsets := Member.Writes.mk (m := .sets .maxNesting 7) hspace
      (Json.literal_encodeChars "max_nesting_depth".toList) rfl Json.blanks_nil hspace rfl
      Json.blanks_nil
    have hobject := ObjectText.members hspace (.more hother (.last hsets)) Json.blanks_nil
    obtain ⟨settings, hread, hset, hrest⟩ := hobjects _
      " \x7b\"x\":\x7b\"a\\\"]\":[-1e3]\x7d , \"max_nesting_depth\": 7\x7d" hobject (by decide)
    rw [hread]
    refine congrArg Except.ok (ext_get fun setting => ?_)
    cases setting with
    | maxNesting => exact hset .maxNesting 7 (by simp)
    | cacheCapacity => exact hrest .cacheCapacity (by decide)
    | maxLength => exact hrest .maxLength (by decide)
  · have hmembers := MembersText.more (Member.writes_sets .maxNesting 7)
      (.last (Member.writes_sets .maxNesting 8))
    exact hduplicates _ "\x7b\"max_nesting_depth\":7,\"max_nesting_depth\":8\x7d"
      (.members Json.blanks_nil hmembers Json.blanks_nil) (by decide)
  · have hitems : ItemsText [0, 4096, 7] _ := .more Json.blanks_nil Json.blanks_nil
      (.more hspace hspace (.last Json.blanks_nil Json.blanks_nil))
    exact harrays ⟨0, 4096, 7⟩ "[0, 4096 ,7]" (.items Json.blanks_nil hitems Json.blanks_nil)

end

end AccessRules
