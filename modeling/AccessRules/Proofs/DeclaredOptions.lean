import AccessRules.CommandLine.Items
import Mathlib.Data.List.Induction

/-!
# What a documented library reads

A library promises what it does about one option. From that follows what it reads on a command line
with any number of them: each option has the values that the items say for it, stored one after the
other, however the kinds of items are mixed.

## Main definitions

* `Declaration.collect`: the values of all options, as the items say them

## Main statements

* `ArgumentLibrary.Documented.parse_of_admits`: a documented library reads what the items say
* `Declaration.collect_one`, `Declaration.collect_many`: what the collected values are

## Implementation notes

The induction takes away the last option behind the name of the command, since a value is stored
behind those that are there already. The options before the name are moved behind it, the nearest
one first, so that they keep their order.
-/

namespace AccessRules

namespace CommandLine

/-! ### Operands and options -/

section

variable {Opt : Type} {items : List (Item Opt)}

/-- Where no option is given, the items are what their operands are. -/
theorem eq_map_operand (h : ∀ item ∈ items, item.operand?.isSome = true) :
    items = (items.filterMap Item.operand?).map .operand := by
  induction items with
  | nil => rfl
  | cons item items ih =>
    obtain ⟨hitem, hitems⟩ := List.forall_mem_cons.mp h
    cases item with
    | operand text => exact congrArg (.operand text :: ·) (ih hitems)
    | option opt flag value => exact Bool.noConfusion hitem

/-- There is an option behind which there are only operands, if there is an option at all. -/
theorem operands_or_exists_last_option (items : List (Item Opt)) :
    (∀ item ∈ items, item.operand?.isSome = true) ∨
      ∃ front opt flag value back, items = front ++ .option opt flag value :: back ∧
        ∀ item ∈ back, item.operand?.isSome = true := by
  induction items with
  | nil => exact .inl fun item hmem => absurd hmem List.not_mem_nil
  | cons item items ih =>
    rcases ih with hall | ⟨front, opt, flag, value, back, rfl, hback⟩
    · cases item with
      | operand text => exact .inl (List.forall_mem_cons.mpr ⟨rfl, hall⟩)
      | option opt flag value => exact .inr ⟨[], opt, flag, value, items, rfl, hall⟩
    · exact .inr ⟨item :: front, opt, flag, value, back, rfl, hback⟩

end

variable {Opt Cmd : Type} [DecidableEq Opt] {declaration : Declaration Opt Cmd} {command : Cmd}
  {before after front back items : List (Item Opt)} {opt : Opt} {flag value text : String}

/-! ### What items say -/

theorem valuesOf_append (opt : Opt) (items items' : List (Item Opt)) :
    valuesOf opt (items ++ items') = valuesOf opt items ++ valuesOf opt items' :=
  List.filterMap_append

theorem valuesOf_option (opt opt' : Opt) (flag value : String) (items : List (Item Opt)) :
    valuesOf opt (.option opt' flag value :: items) =
      if opt' = opt then value :: valuesOf opt items else valuesOf opt items := by
  by_cases h : opt' = opt
  · simp [valuesOf, Item.value?, h]
  · simp [valuesOf, Item.value?, h]

/-- Nothing is said for an option that may not stand where the items stand. -/
theorem valuesOf_eq_nil_of_global (h : ∀ item ∈ items, item.isGlobal declaration = true)
    (hopt : declaration.isGlobal opt = false) : valuesOf opt items = [] := by
  rw [valuesOf, List.filterMap_eq_nil_iff]
  intro item hmem
  cases item with
  | operand text => rfl
  | option opt' flag value =>
    have hglobal : declaration.isGlobal opt' = true := h _ hmem
    refine if_neg ?_
    rintro rfl
    exact Bool.false_ne_true (hopt.symm.trans hglobal)

/-- Operands say nothing for options. -/
theorem valuesOf_eq_nil (h : ∀ item ∈ items, item.operand?.isSome = true) (opt : Opt) :
    valuesOf opt items = [] := by
  rw [valuesOf, List.filterMap_eq_nil_iff]
  intro item hmem
  cases item with
  | operand text => rfl
  | option opt' flag value => exact Bool.noConfusion (h _ hmem)

/-! ### Collected values -/

/-- The values of all options, with those that the items say stored one after the other. -/
def Declaration.collect (declaration : Declaration Opt Cmd) (items : List (Item Opt)) (opt : Opt) :
    List String :=
  (valuesOf opt items).foldl (fun values value => (declaration.arity opt).store value values)
    (declaration.defaults opt)

/-- Operands leave all options with their defaults. -/
theorem Declaration.collect_operands (h : ∀ item ∈ items, item.operand?.isSome = true) :
    declaration.collect items = declaration.defaults := by
  funext opt
  rw [collect, valuesOf_eq_nil h]
  rfl

/-- **The last option stores its value.** -/
theorem Declaration.collect_last (h : ∀ item ∈ back, item.operand?.isSome = true) :
    declaration.collect (front ++ .option opt flag value :: back) =
      Function.update (declaration.collect (front ++ back)) opt
        ((declaration.arity opt).store value (declaration.collect (front ++ back) opt)) := by
  funext opt'
  by_cases hopt : opt' = opt
  · subst hopt
    simp only [Function.update_self, collect, valuesOf_append, valuesOf_option, valuesOf_eq_nil h,
      if_true, List.append_nil, List.foldl_append, List.foldl_cons, List.foldl_nil]
  · rw [Function.update_of_ne hopt]
    simp only [collect, valuesOf_append, valuesOf_option, valuesOf_eq_nil h, if_neg (Ne.symm hopt)]

/-- An option that may be given once has the value that is said, or else its default. -/
theorem Declaration.collect_one {default? value? : Option String}
    (h : declaration.arity opt = .one default?) (hvalues : valuesOf opt items = value?.toList) :
    declaration.collect items opt = (value?.or default?).toList := by
  rw [collect, defaults, h, hvalues]
  cases value? with
  | none => rw [Option.none_or]; rfl
  | some value => rfl

/-- An option that may be repeated has the pieces of all values, in order. -/
theorem Declaration.collect_many {delimiter : Char} (h : declaration.arity opt = .many delimiter) :
    declaration.collect items opt = (valuesOf opt items).flatMap (pieces delimiter) := by
  have hstored (values : List String) (known : List String) :
      values.foldl (fun known value => (Arity.many delimiter).store value known) known =
        known ++ values.flatMap (pieces delimiter) := by
    induction values generalizing known with
    | nil => rw [List.foldl_nil, List.flatMap_nil, List.append_nil]
    | cons value values ih =>
      rw [List.foldl_cons, ih, List.flatMap_cons, ← List.append_assoc]
      rfl
  rw [collect, defaults, h, hstored]
  rfl

/-! ### Command lines as declared -/

namespace Declaration.Admits

/-- Without one of its options, a command line is still as declared. -/
theorem remove
    (h : declaration.Admits command before (front ++ .option opt flag value :: back) text) :
    declaration.Admits command before (front ++ back) text := by
  have hsublist : (front ++ back).Sublist (front ++ .option opt flag value :: back) :=
    List.Sublist.append_left (List.sublist_cons_self _ _) front
  have hwhole := List.Sublist.append_left hsublist before
  refine ⟨?_, h.global, ?_, ?_, ?_⟩
  · intro item hmem
    exact h.valid item (hwhole.subset hmem)
  · intro item hmem
    exact h.allowed item (hsublist.subset hmem)
  · rw [← h.operand, List.filterMap_append, List.filterMap_append]
    rfl
  · intro opt' hone
    exact Nat.le_trans (hwhole.filterMap _).length_le (h.once opt' hone)

/-- A global option may be moved behind the name of the command. -/
theorem move (h : declaration.Admits command (before ++ [.option opt flag value]) after text) :
    declaration.Admits command before (.option opt flag value :: after) text := by
  have hwhole : before ++ .option opt flag value :: after =
      before ++ [.option opt flag value] ++ after := by
    rw [List.append_assoc, List.singleton_append]
  obtain ⟨hbefore, hopt⟩ := List.forall_mem_append.mp h.global
  have hglobal : declaration.isGlobal opt = true := hopt _ List.mem_cons_self
  refine ⟨?_, hbefore, ?_, h.operand, ?_⟩
  · rw [hwhole]
    exact h.valid
  · refine List.forall_mem_cons.mpr ⟨?_, h.allowed⟩
    rw [Item.isAllowed, hglobal, Bool.true_or]
  · rw [hwhole]
    exact h.once

/-- Where no option is given, there is one operand and nothing else. -/
theorem eq_operand (h : declaration.Admits command before after text)
    (hall : ∀ item ∈ after, item.operand?.isSome = true) : after = [.operand text] := by
  rw [eq_map_operand hall, h.operand]
  rfl

end Declaration.Admits

end CommandLine

open CommandLine

namespace ArgumentLibrary.Documented

variable {Opt Cmd : Type} [DecidableEq Opt] {declaration : Declaration Opt Cmd}
  [library : ArgumentLibrary declaration] {command : Cmd} {before after : List (Item Opt)}
  {text : String}

/-- With all options behind the name of the command. -/
theorem parse_of_admits_nil (hlib : Documented declaration)
    (h : declaration.Admits command [] after text) :
    library.parse (declaration.commandLine command [] after) =
      .ok ⟨command, text, declaration.collect after⟩ := by
  induction hlength : after.length generalizing after with
  | zero =>
    cases List.length_eq_zero_iff.mp hlength
    cases h.operand
  | succ n ih =>
    rcases operands_or_exists_last_option after with
      hall | ⟨front, opt, flag, value, back, rfl, hlast⟩
    · rw [Declaration.collect_operands hall]
      cases h.eq_operand hall
      exact hlib.operand (h.valid _ List.mem_cons_self)
    · have hshorter : (front ++ back).length = n := by
        simp only [List.length_append, List.length_cons] at hlength ⊢
        omega
      rw [hlib.option h hlast (ih h.remove hshorter), Matches.store, Declaration.collect_last hlast]

/-- **A documented library reads what the items say**, wherever the operand and the options
stand. -/
theorem parse_of_admits (hlib : Documented declaration)
    (h : declaration.Admits command before after text) :
    library.parse (declaration.commandLine command before after) =
      .ok ⟨command, text, declaration.collect (before ++ after)⟩ := by
  induction before using List.reverseRecOn generalizing after with
  | nil => exact hlib.parse_of_admits_nil h
  | append_singleton before item ih =>
    cases item with
    | operand text' =>
      have hglobal := h.global (.operand text') (by simp)
      exact Bool.noConfusion hglobal
    | option opt flag value =>
      rw [hlib.global h, ih h.move, List.append_assoc, List.singleton_append]

end ArgumentLibrary.Documented

end AccessRules
