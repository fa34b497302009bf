import AccessRules.Json.Render
import AccessRules.Proofs.SkippedValues
import AccessRules.Settings.Read

/-!
# Documents of settings

The texts that a document of settings may be written as, and how the built-in library reads them.
The members of an object set what they name and nothing else, in whichever order they stand and
whatever stands between them. A setting that two members name makes the document faulty.

## Main definitions

* `Settings.Member`, `Member.Writes`: a member, and the texts that it may be written as
* `Settings.ObjectText`, `Settings.ArrayText`: the texts of an object with these members, and of an
  array with these counts
* `Settings.record`: what a member adds to the values that were set before it

## Main statements

* `Json.readCount_append`: the digits of a count are read as the count
* `MembersText.readMembers_eq`: the members are read one after the other, as `record` says
* `record_nodup`: what a list of members comes to
* `ObjectText.overrides_eq`, `ArrayText.overrides_eq`: what an object and an array are read as
* `objectText_toJson`: what is written is an object

## Implementation notes

A count has exactly one JSON number, its decimal digits: a number with a point or an exponent is
none, nor is a number with a sign. So `Member.Writes` may ask for the digits themselves. Members
that set nothing have any name and any well-formed value, and the text between braces is split into
members by the grammar and not by the reader. A name has to denote a text, since it is compared with
the keys of the settings; the keys inside a value do not.
-/

namespace AccessRules

namespace Json

open Fault (before within)

/-! ### Counts -/

theorem le_ofDigitChars (ds : List Char) (n : Nat) : n ≤ Nat.ofDigitChars 10 ds n := by
  induction ds generalizing n with
  | nil => exact Nat.le_refl n
  | cons c ds ih =>
    rw [Nat.ofDigitChars_cons]
    exact Nat.le_trans (by omega) (ih _)

/-- Digits of a number below `2 ^ 64` are all taken. -/
theorem takeDigits_append {ds rest : List Char} (hds : ∀ c ∈ ds, c.isDigit = true)
    (hrest : ∀ c ∈ rest.head?, c.isDigit = false) {n : Nat}
    (hlt : Nat.ofDigitChars 10 ds n < UInt64.size) :
    takeDigits n (ds ++ rest) = (Nat.ofDigitChars 10 ds n, ds.length, rest) := by
  induction ds generalizing n with
  | nil =>
    cases rest with
    | nil => rfl
    | cons c rest =>
      have hc : c.isDigit = false := hrest c (by simp)
      simp [takeDigits, hc]
  | cons c ds ih =>
    have hc : c.isDigit = true := hds c List.mem_cons_self
    rw [Nat.ofDigitChars_cons, Nat.mul_comm] at hlt ⊢
    have hle : n * 10 + (c.toNat - '0'.toNat) < UInt64.size :=
      Nat.lt_of_le_of_lt (le_ofDigitChars ds _) hlt
    simp only [List.cons_append, takeDigits, hc, hle, and_self, if_true,
      ih (fun d hd => hds d (List.mem_cons_of_mem c hd)) hlt, List.length_cons]

/-- The digits of a number have no needless zero in front. -/
theorem eq_zero_of_head?_toDigits {n : Nat} (h : (Nat.toDigits 10 n).head? = some '0') : n = 0 := by
  induction n using Nat.strongRecOn with
  | ind n ih =>
    by_cases hn : n < 10
    · rw [Nat.toDigits_of_lt_base hn] at h
      have hall : ∀ k < 10, Nat.digitChar k = '0' → k = 0 := by decide
      exact hall n hn (Option.some.inj h)
    · have hhead := List.head?_eq_some_head (Nat.toDigits_ne_nil (n := n / 10) (b := 10))
      rw [Nat.toDigits_of_base_le (by decide) (Nat.le_of_not_lt hn), List.head?_append, hhead,
        Option.some_or, ← hhead] at h
      have hzero := ih (n / 10) (by omega) h
      omega

/-- The digits of a number below `2 ^ 64` are read as the number. -/
theorem readNumber_append {n : Nat} (hn : n < UInt64.size) {rest : List Char}
    (hrest : Delimited rest) :
    readNumber (Nat.toDigits 10 n ++ rest) = .ok (.natural n, rest) := by
  have hdigits : ∀ c ∈ Nat.toDigits 10 n, c.isDigit = true := fun c hc =>
    Nat.isDigit_of_mem_toDigits (by decide) (by decide) hc
  have hvalue : Nat.ofDigitChars 10 (Nat.toDigits 10 n) 0 = n := Nat.ofDigitChars_ten_toDigits
  have hnodigit : ∀ c ∈ rest.head?, c.isDigit = false := fun c hc =>
    (hrest.not_continues c hc).1
  have htake := takeDigits_append hdigits hnodigit (hvalue.symm ▸ hn)
  have hzero : (Nat.toDigits 10 n).head? = some '0' → Nat.toDigits 10 n = ['0'] := by
    intro h
    rw [eq_zero_of_head?_toDigits h]
    exact Nat.toDigits_zero 10
  have hcontinues : continuesNumber rest = false := by
    rw [continuesNumber, Option.any_eq_false]
    intro c hc
    obtain ⟨hdigit, hpoint, he, hE⟩ := hrest.not_continues c hc
    simp [hdigit, hpoint, he, hE]
  rw [hvalue] at htake
  obtain ⟨c, cs, hcs, hc⟩ := SomeDigits.exists_cons ⟨Nat.toDigits_ne_nil, hdigits⟩
  rw [hcs] at htake hzero ⊢
  have hminus := (begins_of_isDigit hc).2.2.2.1
  have hneedless := not_needless_zero hzero hnodigit
  rw [List.cons_append] at htake ⊢
  rw [readNumber, if_neg hminus, readUnsigned, if_neg (by simp [hc]), if_neg hneedless, htake]
  simp only [hcontinues, Bool.false_eq_true, if_false]
  rfl

theorem exists_cons_toString (n : Nat) :
    ∃ c cs, (toString n).toList = c :: cs ∧ c.isDigit = true := by
  rw [Nat.toString_eq_ofList_toDigits, String.toList_ofList]
  exact SomeDigits.exists_cons ⟨Nat.toDigits_ne_nil, fun c hc =>
    Nat.isDigit_of_mem_toDigits (by decide) (by decide) hc⟩

/-- **The digits of a count are read as the count.** -/
theorem readCount_append {b rest : List Char} (hb : Blanks b) (n : UInt64)
    (hrest : Delimited rest) :
    readCount (b ++ ((toString n.toNat).toList ++ rest)) = .ok (n, rest) := by
  have hread := readNumber_append n.toNat_lt_size hrest
  rw [← String.toList_ofList (l := Nat.toDigits 10 n.toNat), ← Nat.toString_eq_ofList_toDigits]
    at hread
  obtain ⟨c, cs, hcs, hc⟩ := exists_cons_toString n.toNat
  rw [hcs, List.cons_append] at hread ⊢
  rw [readCount, skipBlanks_append hb, skipBlanks_cons (begins_of_isDigit hc).1.1]
  dsimp only
  rw [if_pos (.inr hc), hread]
  simp [bind, Except.bind, countOf]

end Json

namespace Settings

open Json (Blanks Literal WellFormed Delimited skipBlanks)
open Json.Fault (before within)

/-! ### The texts of a document -/

/-- A member of an object. -/
inductive Member where
  /-- A setting and its count. -/
  | sets (setting : Setting) (value : UInt64)
  /-- Anything that names no setting. -/
  | other

namespace Member

/-- The setting that a member sets, if it sets one. -/
def setting? : Member → Option Setting
  | sets setting _ => some setting
  | other => none

/-- Whether a member may have this name. -/
def Named : Member → List Char → Prop
  | sets setting _, name => name = setting.key.toList
  | other, name => ∀ setting : Setting, name ≠ setting.key.toList

/-- Whether a member may have the value that this text writes. -/
def Valued : Member → List Char → Prop
  | sets _ value, text => text = (toString value.toNat).toList
  | other, text => WellFormed .value text

/-- `m.Writes cs`: the member `m` may be written as `cs`. -/
inductive Writes (m : Member) : List Char → Prop where
  | mk {b₁ key name b₂ b₃ value b₄ : List Char} (hb₁ : Blanks b₁) (hkey : Literal key name)
      (hname : m.Named name) (hb₂ : Blanks b₂) (hb₃ : Blanks b₃) (hvalue : m.Valued value)
      (hb₄ : Blanks b₄) : m.Writes (b₁ ++ (key ++ (b₂ ++ ':' :: (b₃ ++ (value ++ b₄)))))

end Member

/-- `MembersText ms cs`: the members `ms`, of which there is one at least, may be written as `cs`,
with a comma between two of them. -/
inductive MembersText : List Member → List Char → Prop where
  | last {m : Member} {cs : List Char} (h : m.Writes cs) : MembersText [m] cs
  | more {m : Member} {ms : List Member} {cs cs' : List Char} (h : m.Writes cs)
      (hs : MembersText ms cs') : MembersText (m :: ms) (cs ++ ',' :: cs')

/-- `ObjectText ms cs`: an object with the members `ms` may be written as `cs`. -/
inductive ObjectText : List Member → List Char → Prop where
  | empty {b₁ b₂ b₃ : List Char} (hb₁ : Blanks b₁) (hb₂ : Blanks b₂) (hb₃ : Blanks b₃) :
      ObjectText [] (b₁ ++ '\x7b' :: (b₂ ++ '\x7d' :: b₃))
  | members {ms : List Member} {b₁ cs b₂ : List Char} (hb₁ : Blanks b₁) (h : MembersText ms cs)
      (hb₂ : Blanks b₂) : ObjectText ms (b₁ ++ '\x7b' :: (cs ++ '\x7d' :: b₂))

/-- `ItemsText values cs`: the counts `values`, of which there is one at least, may be written as
`cs`, with a comma between two of them. -/
inductive ItemsText : List UInt64 → List Char → Prop where
  | last {value : UInt64} {b₁ b₂ : List Char} (hb₁ : Blanks b₁) (hb₂ : Blanks b₂) :
      ItemsText [value] (b₁ ++ ((toString value.toNat).toList ++ b₂))
  | more {value : UInt64} {values : List UInt64} {b₁ b₂ cs : List Char} (hb₁ : Blanks b₁)
      (hb₂ : Blanks b₂) (hs : ItemsText values cs) :
      ItemsText (value :: values) (b₁ ++ ((toString value.toNat).toList ++ (b₂ ++ ',' :: cs)))

/-- `ArrayText values cs`: an array of the counts `values` may be written as `cs`. -/
inductive ArrayText : List UInt64 → List Char → Prop where
  | empty {b₁ b₂ b₃ : List Char} (hb₁ : Blanks b₁) (hb₂ : Blanks b₂) (hb₃ : Blanks b₃) :
      ArrayText [] (b₁ ++ '[' :: (b₂ ++ ']' :: b₃))
  | items {values : List UInt64} {b₁ cs b₂ : List Char} (hb₁ : Blanks b₁) (h : ItemsText values cs)
      (hb₂ : Blanks b₂) : ArrayText values (b₁ ++ '[' :: (cs ++ ']' :: b₂))

/-! ### What members come to -/

/-- What a member adds to the values that were set before it. A setting that was set before is
refused. -/
def record (seen : Overrides) : Member → Except Setting Overrides
  | .sets setting value =>
    if (seen setting).isSome then .error setting else .ok (seen.set setting value)
  | .other => .ok seen

/-- The settings that members set, in order. -/
def named (ms : List Member) : List Setting :=
  ms.filterMap Member.setting?

@[simp] theorem named_other (ms : List Member) : named (.other :: ms) = named ms := rfl

@[simp] theorem named_sets (setting : Setting) (value : UInt64) (ms : List Member) :
    named (.sets setting value :: ms) = setting :: named ms := rfl

/-- Members that name no setting twice, and none that was set before, are all recorded: what they
name is set to their values, and the rest stays as it was. -/
theorem record_nodup {ms : List Member} (hms : (named ms).Nodup) {seen : Overrides}
    (hseen : ∀ setting ∈ named ms, seen setting = none) :
    ∃ o, ms.foldlM record seen = .ok o ∧
      (∀ setting value, .sets setting value ∈ ms → o setting = some value) ∧
      ∀ setting, setting ∉ named ms → o setting = seen setting := by
  induction ms generalizing seen with
  | nil => exact ⟨seen, rfl, fun _ _ h => absurd h List.not_mem_nil, fun _ _ => rfl⟩
  | cons m ms ih =>
    cases m with
    | other =>
      obtain ⟨o, hfold, hset, hrest⟩ := ih hms hseen
      refine ⟨o, hfold, fun setting value h => ?_, hrest⟩
      rcases List.mem_cons.mp h with h | h
      · cases h
      · exact hset setting value h
    | sets first count =>
      rw [named_sets, List.nodup_cons] at hms
      have hfirst : seen first = none := hseen first List.mem_cons_self
      have hseen' : ∀ setting ∈ named ms, seen.set first count setting = none := by
        intro setting h
        have hne : setting ≠ first := fun heq => hms.1 (heq ▸ h)
        rw [Overrides.set, if_neg hne]
        exact hseen setting (List.mem_cons_of_mem first h)
      obtain ⟨o, hfold, hset, hrest⟩ := ih hms.2 hseen'
      refine ⟨o, ?_, fun setting value h => ?_, fun setting h => ?_⟩
      · rw [List.foldlM_cons, record, hfirst]
        exact hfold
      · rcases List.mem_cons.mp h with h | h
        · cases h
          rw [hrest first hms.1, Overrides.set, if_pos rfl]
        · exact hset setting value h
      · rw [named_sets, List.mem_cons, not_or] at h
        rw [hrest setting h.2, Overrides.set, if_neg h.1]

/-- Members of which one is refused name a setting that was set before, or one that they name more
than once. -/
theorem record_error {ms : List Member} {seen : Overrides} {setting : Setting}
    (h : ms.foldlM record seen = .error setting) :
    (seen setting).isSome ∧ setting ∈ named ms ∨ 1 < (named ms).count setting := by
  induction ms generalizing seen with
  | nil => cases h
  | cons m ms ih =>
    rw [List.foldlM_cons] at h
    cases m with
    | other => exact ih h
    | sets first count =>
      rw [named_sets, List.mem_cons, List.count_cons]
      rcases bind_eq_error.mp h with hfirst | ⟨seen', hfirst, hfold⟩
      · rw [record] at hfirst
        split at hfirst
        · next hsome =>
          cases hfirst
          exact .inl ⟨hsome, .inl rfl⟩
        · cases hfirst
      · rw [record] at hfirst
        split at hfirst
        · cases hfirst
        · cases hfirst
          rcases ih hfold with ⟨hsome, hmem⟩ | hcount
          · by_cases heq : setting = first
            · have hpos := List.count_pos_iff.mpr hmem
              refine .inr ?_
              rw [if_pos (by simp [heq])]
              omega
            · rw [Overrides.set, if_neg heq] at hsome
              exact .inl ⟨hsome, .inr hmem⟩
          · exact .inr (Nat.lt_of_lt_of_le hcount (Nat.le_add_right _ _))

/-- Members that are all recorded name no setting twice. -/
theorem nodup_of_record {ms : List Member} {seen o : Overrides}
    (h : ms.foldlM record seen = .ok o) :
    (named ms).Nodup ∧ ∀ setting ∈ named ms, seen setting = none := by
  induction ms generalizing seen with
  | nil => exact ⟨List.nodup_nil, fun _ h => absurd h List.not_mem_nil⟩
  | cons m ms ih =>
    rw [List.foldlM_cons] at h
    obtain ⟨seen', hfirst, hfold⟩ := bind_eq_ok.mp h
    obtain ⟨hnodup, hseen⟩ := ih hfold
    cases m with
    | other =>
      cases hfirst
      exact ⟨hnodup, hseen⟩
    | sets first count =>
      rw [record] at hfirst
      split at hfirst
      · cases hfirst
      · next hnone =>
        cases hfirst
        have hfirst : seen first = none := by simpa using hnone
        rw [named_sets, List.nodup_cons]
        refine ⟨⟨fun hmem => ?_, hnodup⟩, fun setting hmem => ?_⟩
        · have hset := hseen first hmem
          rw [Overrides.set, if_pos rfl] at hset
          cases hset
        · rcases List.mem_cons.mp hmem with rfl | hmem
          · exact hfirst
          · have hset := hseen setting hmem
            by_cases heq : setting = first
            · rw [heq]
              exact hfirst
            · rwa [Overrides.set, if_neg heq] at hset

/-! ### The reader of members -/

/-- Read a member behind the opening quote of its name, and the members after it. -/
def readFrom (seen : Overrides) (cs : List Char) : Except Json.Fault (Overrides × List Char) := do
  let (key, rest) ← Json.readString cs
  let (seen, rest) ← readMember seen (String.ofList key) rest
  readMembers seen true rest

theorem readMembers_eq (seen : Overrides) (afterMember : Bool) (cs : List Char) :
    readMembers seen afterMember cs =
      match skipBlanks cs with
      | [] => .error ⟨.endInObject, 0⟩
      | c :: rest =>
        if c = '\x7d' then .ok (seen, rest)
        else if afterMember ∧ c ≠ ',' then .error (within .expectedMemberEnd (c :: rest))
        else
          match memberStart afterMember c rest with
          | [] => .error ⟨.endInValue, 0⟩
          | d :: rest =>
            if d = '"' then readFrom seen rest
            else if d = '\x7d' then .error (within .trailingComma (d :: rest))
            else .error (within .keyNotString (d :: rest)) := by
  rw [readMembers]
  split
  · next h => rw [h]
  · next c rest h =>
    simp only [h]
    split
    · rfl
    · split
      · rfl
      · split
        · next hstart => rw [hstart]
        · next d rest' hstart =>
          simp only [hstart]
          split
          · rw [readFrom]
            split
            · next hkey => rw [hkey]; rfl
            · next hkey =>
              rw [hkey]
              split <;> next hmember => simp only [bind, Except.bind, hmember]
          · rfl

theorem readMembers_blanks {b : List Char} (hb : Blanks b) (seen : Overrides) (afterMember : Bool)
    (cs : List Char) :
    readMembers seen afterMember (b ++ cs) = readMembers seen afterMember cs := by
  rw [readMembers_eq, Json.skipBlanks_append hb, ← readMembers_eq]

/-- A closing brace ends the members. -/
theorem readMembers_closing (seen : Overrides) (afterMember : Bool) (rest : List Char) :
    readMembers seen afterMember ('\x7d' :: rest) = .ok (seen, rest) := by
  rw [readMembers_eq, Json.skipBlanks_cons (by decide)]
  exact if_pos rfl

/-- Behind the opening brace a name begins the first member. -/
theorem readMembers_first {cs rest : List Char} (h : skipBlanks cs = '"' :: rest)
    (seen : Overrides) : readMembers seen false cs = readFrom seen rest := by
  rw [readMembers_eq, h]
  simp [memberStart]

/-- Behind a member a comma leads to the next one. -/
theorem readMembers_comma {cs rest : List Char} (h : skipBlanks cs = '"' :: rest)
    (seen : Overrides) : readMembers seen true (',' :: cs) = readFrom seen rest := by
  rw [readMembers_eq, Json.skipBlanks_cons (by decide)]
  simp [memberStart, h]

/-! ### The members of an object -/

theorem ofKey?_eq_none {name : List Char} (h : ∀ setting : Setting, name ≠ setting.key.toList) :
    Setting.ofKey? (String.ofList name) = none := by
  rw [Setting.ofKey?, List.find?_eq_none]
  intro setting _ hkey
  have heq : setting.key = String.ofList name := by simpa using hkey
  exact h setting (by rw [heq, String.toList_ofList])

/-- A reading follows a record: it ends before `rest` with the values that were recorded, or it
fails with the setting that was refused. -/
def Follows (rest : List Char) :
    Except Setting Overrides → Except Json.Fault (Overrides × List Char) → Prop
  | .ok o, r => r = .ok (o, rest)
  | .error setting, r => ∃ left, r = .error ⟨.duplicateMember setting.key, left⟩

theorem follows_ok {rest : List Char} {o : Overrides}
    {r : Except Json.Fault (Overrides × List Char)} :
    Follows rest (.ok o) r ↔ r = .ok (o, rest) := Iff.rfl

theorem follows_error {rest : List Char} {setting : Setting}
    {r : Except Json.Fault (Overrides × List Char)} :
    Follows rest (.error setting) r ↔
      ∃ left, r = .error ⟨.duplicateMember setting.key, left⟩ := Iff.rfl

/-- **A member is read as it is recorded.** -/
theorem readMember_follows {m : Member} {name value b₂ b₃ rest : List Char} (hname : m.Named name)
    (hb₂ : Blanks b₂) (hb₃ : Blanks b₃) (hvalue : m.Valued value) (hrest : Delimited rest)
    (seen : Overrides) :
    Follows rest (record seen m)
      (readMember seen (String.ofList name) (b₂ ++ ':' :: (b₃ ++ (value ++ rest)))) := by
  cases m with
  | other =>
    simp only [readMember, ofKey?_eq_none hname, Json.skipColon_append hb₂, bind, Except.bind,
      Json.skipValue_append hb₃ hvalue hrest]
    rfl
  | sets setting count =>
    obtain rfl : name = setting.key.toList := hname
    obtain rfl : value = (toString count.toNat).toList := hvalue
    rw [readMember, String.ofList_toList, Setting.ofKey?_key, record]
    dsimp only
    by_cases hsome : (seen setting).isSome = true
    · rw [if_pos hsome, if_pos hsome]
      exact ⟨_, rfl⟩
    · rw [if_neg hsome, if_neg hsome, Json.skipColon_append hb₂]
      simp only [bind, Except.bind, Json.readCount_append hb₃ count hrest]
      rfl

/-- A member begins with a quote, and behind it the member is read as it is recorded. -/
theorem Member.Writes.exists_readFrom {m : Member} {cs rest : List Char} (h : m.Writes cs)
    (hrest : Delimited rest) :
    ∃ behind, skipBlanks (cs ++ rest) = '"' :: behind ∧ ∀ seen,
      (∀ setting, record seen m = .error setting →
        ∃ left, readFrom seen behind = .error ⟨.duplicateMember setting.key, left⟩) ∧
      ∀ seen', record seen m = .ok seen' → readFrom seen behind = readMembers seen' true rest := by
  cases h with
  | @mk b₁ _ name b₂ b₃ value b₄ hb₁ hkey hname hb₂ hb₃ hvalue hb₄ =>
    cases hkey with
    | @mk body _ hbody =>
      refine ⟨body ++ '"' :: (b₂ ++ ':' :: (b₃ ++ (value ++ (b₄ ++ rest)))), ?_, fun seen => ?_⟩
      · simp only [List.append_assoc, List.cons_append, List.nil_append,
          Json.skipBlanks_append hb₁]
        exact Json.skipBlanks_cons (by decide) _
      · have hread := readMember_follows hname hb₂ hb₃ hvalue (hrest.blanks_append hb₄) seen
        rw [readFrom, hbody.readString_eq]
        simp only [bind, Except.bind]
        constructor
        · intro setting herror
          rw [herror, follows_error] at hread
          obtain ⟨left, hread⟩ := hread
          exact ⟨left, by rw [hread]⟩
        · intro seen' hok
          rw [hok, follows_ok] at hread
          rw [hread]
          exact readMembers_blanks hb₄ seen' true rest

/-- **Members are read one after the other**, as they are recorded. -/
theorem MembersText.exists_readFrom {ms : List Member} {cs : List Char} (h : MembersText ms cs)
    (rest : List Char) :
    ∃ behind, skipBlanks (cs ++ '\x7d' :: rest) = '"' :: behind ∧
      ∀ seen, Follows rest (ms.foldlM record seen) (readFrom seen behind) := by
  induction h with
  | @last m cs h =>
    obtain ⟨behind, hbehind, hread⟩ :=
      h.exists_readFrom (Json.delimited_closing .object rest)
    refine ⟨behind, hbehind, fun seen => ?_⟩
    rw [List.foldlM_cons]
    cases hrecord : record seen m with
    | error setting => exact (hread seen).1 setting hrecord
    | ok seen' => exact ((hread seen).2 seen' hrecord).trans (readMembers_closing seen' true rest)
  | @more m ms cs cs' h _ ih =>
    obtain ⟨behind', hbehind', hfollows⟩ := ih
    obtain ⟨behind, hbehind, hread⟩ :=
      h.exists_readFrom (Json.delimited_comma (cs' ++ '\x7d' :: rest))
    refine ⟨behind, by rw [List.append_assoc, List.cons_append, hbehind], fun seen => ?_⟩
    rw [List.foldlM_cons]
    cases hrecord : record seen m with
    | error setting => exact (hread seen).1 setting hrecord
    | ok seen' =>
      have hnext := ((hread seen).2 seen' hrecord).trans (readMembers_comma hbehind' seen')
      rw [hnext]
      exact hfollows seen'

/-- What is read from a document that begins with an opening brace. -/
theorem overridesOfDocument_of_brace {text : String} {b cs : List Char} (hb : Blanks b)
    (htext : text.toList = b ++ '\x7b' :: cs) :
    overridesOfDocument text =
      (readMembers .none false cs >>= fun p =>
        match skipBlanks p.2 with
        | [] => .ok p.1
        | rest => .error (within .trailingCharacters rest)) := by
  rw [overridesOfDocument, Json.readDocument, htext, read, Json.skipBlanks_append hb,
    Json.skipBlanks_cons (by decide)]
  dsimp only
  rw [if_pos rfl]
  cases readMembers .none false cs <;> rfl

/-- **An object is read as its members are recorded.** -/
theorem ObjectText.overrides_eq {ms : List Member} {text : String} (h : ObjectText ms text.toList) :
    (∀ o, ms.foldlM record .none = .ok o → overridesOfDocument text = .ok o) ∧
      ∀ setting, ms.foldlM record .none = .error setting →
        ∃ left, overridesOfDocument text = .error ⟨.duplicateMember setting.key, left⟩ := by
  generalize hcs : text.toList = cs at h
  cases h with
  | @empty b₁ b₂ b₃ hb₁ hb₂ hb₃ =>
    rw [overridesOfDocument_of_brace hb₁ hcs, readMembers_blanks hb₂, readMembers_closing]
    refine ⟨fun o h => ?_, fun setting h => ?_⟩
    · cases h
      simp only [bind, Except.bind, Json.skipBlanks_eq_nil_iff.mpr hb₃]
    · cases h
  | @members _ b₁ cs b₂ hb₁ h hb₂ =>
    obtain ⟨behind, hbehind, hfollows⟩ := h.exists_readFrom b₂
    have hread := hfollows .none
    rw [overridesOfDocument_of_brace hb₁ hcs, readMembers_first hbehind]
    refine ⟨fun o h => ?_, fun setting h => ?_⟩
    · rw [h, follows_ok] at hread
      rw [hread]
      simp only [bind, Except.bind, Json.skipBlanks_eq_nil_iff.mpr hb₂]
    · rw [h, follows_error] at hread
      obtain ⟨left, hread⟩ := hread
      exact ⟨left, by rw [hread]; rfl⟩

/-! ### The items of an array -/

theorem readItems_blanks {b : List Char} (hb : Blanks b) (seen : Overrides) (afterItem : Bool)
    (cs : List Char) (settings : List Setting) :
    readItems seen afterItem (b ++ cs) settings = readItems seen afterItem cs settings := by
  cases settings <;> rw [readItems, readItems, Json.skipBlanks_append hb]

/-- A closing bracket ends the items. -/
theorem readItems_closing (seen : Overrides) (afterItem : Bool) (rest : List Char)
    (settings : List Setting) :
    readItems seen afterItem (']' :: rest) settings = .ok (seen, rest) := by
  cases settings <;> rw [readItems, Json.skipBlanks_cons (by decide)] <;> exact if_pos rfl

/-- An item sets the next setting, whether it is the first or follows a comma. -/
theorem readItems_count {b rest : List Char} (hb : Blanks b) (hrest : Delimited rest)
    (value : UInt64) (seen : Overrides) (setting : Setting) (settings : List Setting) :
    readItems seen false (b ++ ((toString value.toNat).toList ++ rest)) (setting :: settings) =
        readItems (seen.set setting value) true rest settings ∧
      readItems seen true (',' :: (b ++ ((toString value.toNat).toList ++ rest)))
          (setting :: settings) =
        readItems (seen.set setting value) true rest settings := by
  have hread := Json.readCount_append Json.blanks_nil value hrest
  obtain ⟨c, cs, hcs, hc⟩ := Json.exists_cons_toString value.toNat
  rw [List.nil_append] at hread
  generalize (toString value.toNat).toList = digits at hread hcs ⊢
  subst hcs
  have hblank : skipBlanks (b ++ (c :: cs ++ rest)) = c :: cs ++ rest := by
    rw [Json.skipBlanks_append hb, List.cons_append,
      Json.skipBlanks_cons (Json.begins_of_isDigit hc).1.1]
  rw [List.cons_append] at hread hblank
  have hclosing : c ≠ ']' := (Json.begins_of_isDigit hc).1.2 .array
  constructor
  · rw [readItems, List.cons_append, hblank]
    simp [hclosing, memberStart, hread, bind, Except.bind]
  · rw [readItems, Json.skipBlanks_cons (by decide)]
    simp [hclosing, memberStart, hblank, hread, bind, Except.bind]

/-- The values of some settings, over what was set before. -/
def Overrides.setAll (seen : Overrides) (settings : List Setting) (value : Setting → UInt64) :
    Overrides :=
  fun setting => if setting ∈ settings then some (value setting) else seen setting

theorem Overrides.setAll_cons (seen : Overrides) (setting : Setting) (settings : List Setting)
    (value : Setting → UInt64) :
    setAll (seen.set setting (value setting)) settings value =
      setAll seen (setting :: settings) value := by
  funext other
  by_cases hother : other = setting
  · simp [setAll, Overrides.set, hother]
  · simp [setAll, Overrides.set, hother]

/-- One more setting, behind the first ones. -/
theorem Overrides.set_setAll (seen : Overrides) (settings : List Setting) (setting : Setting)
    (value : Setting → UInt64) :
    (setAll seen settings value).set setting (value setting) =
      setAll seen (settings ++ [setting]) value := by
  funext other
  by_cases hother : other = setting
  · simp [setAll, Overrides.set, hother]
  · simp [setAll, Overrides.set, hother]

/-- **Items are read one after the other**, each for the next of the settings. Settings for which
there is no item stay as they are. -/
theorem ItemsText.readItems_eq {values : List UInt64} {cs : List Char} (h : ItemsText values cs)
    (rest : List Char) {value : Setting → UInt64} {settings : List Setting}
    (hvalues : values = settings.map value) (more : List Setting) (seen : Overrides) :
    readItems seen false (cs ++ ']' :: rest) (settings ++ more) =
        .ok (Overrides.setAll seen settings value, rest) ∧
      readItems seen true (',' :: (cs ++ ']' :: rest)) (settings ++ more) =
        .ok (Overrides.setAll seen settings value, rest) := by
  induction h generalizing settings seen with
  | @last count b₁ b₂ hb₁ hb₂ =>
    obtain ⟨setting, rfl, rfl⟩ := List.map_eq_singleton_iff.mp hvalues.symm
    have hrest : Delimited (b₂ ++ ']' :: rest) :=
      (Json.delimited_closing .array rest).blanks_append hb₂
    obtain ⟨hfirst, hnext⟩ := readItems_count hb₁ hrest (value setting) seen setting more
    have hend : readItems (seen.set setting (value setting)) true (b₂ ++ ']' :: rest) more =
        .ok (Overrides.setAll seen [setting] value, rest) := by
      rw [readItems_blanks hb₂, readItems_closing, ← Overrides.setAll_cons]
      rfl
    simp only [List.append_assoc]
    exact ⟨hfirst.trans hend, hnext.trans hend⟩
  | @more count counts b₁ b₂ cs hb₁ hb₂ _ ih =>
    obtain ⟨setting, settings, rfl, rfl, hcounts⟩ := List.map_eq_cons_iff.mp hvalues.symm
    have hrest : Delimited (b₂ ++ ',' :: (cs ++ ']' :: rest)) :=
      (Json.delimited_comma _).blanks_append hb₂
    obtain ⟨hfirst, hnext⟩ :=
      readItems_count hb₁ hrest (value setting) seen setting (settings ++ more)
    have hend := (ih hcounts.symm (seen.set setting (value setting))).2
    rw [← readItems_blanks hb₂, Overrides.setAll_cons] at hend
    simp only [List.append_assoc, List.cons_append]
    exact ⟨hfirst.trans hend, hnext.trans hend⟩

/-- What is read from a document that begins with an opening bracket. -/
theorem overridesOfDocument_of_bracket {text : String} {b cs : List Char} (hb : Blanks b)
    (htext : text.toList = b ++ '[' :: cs) :
    overridesOfDocument text =
      (readItems .none false cs Setting.all >>= fun p =>
        match skipBlanks p.2 with
        | [] => .ok p.1
        | rest => .error (within .trailingCharacters rest)) := by
  rw [overridesOfDocument, Json.readDocument, htext, read, Json.skipBlanks_append hb,
    Json.skipBlanks_cons (by decide)]
  dsimp only
  rw [if_neg (by decide), if_pos rfl]
  cases readItems .none false cs Setting.all <;> rfl

/-- **An array of counts sets the first settings**, in their order, and no others. -/
theorem ArrayText.overrides_eq {value : Setting → UInt64} {settings more : List Setting}
    (hall : Setting.all = settings ++ more) {text : String}
    (h : ArrayText (settings.map value) text.toList) :
    overridesOfDocument text = .ok (Overrides.setAll .none settings value) := by
  generalize hcs : text.toList = cs, hvalues : settings.map value = values at h
  cases h with
  | @empty b₁ b₂ b₃ hb₁ hb₂ hb₃ =>
    obtain rfl : settings = [] := List.map_eq_nil_iff.mp hvalues
    rw [overridesOfDocument_of_bracket hb₁ hcs, readItems_blanks hb₂, readItems_closing]
    simp only [bind, Except.bind, Json.skipBlanks_eq_nil_iff.mpr hb₃]
    rfl
  | @items _ b₁ cs b₂ hb₁ h hb₂ =>
    rw [overridesOfDocument_of_bracket hb₁ hcs, hall, (h.readItems_eq b₂ hvalues.symm more .none).1]
    simp only [bind, Except.bind, Json.skipBlanks_eq_nil_iff.mpr hb₂]

/-! ### What is written -/

theorem Member.writes_sets (setting : Setting) (value : UInt64) :
    (Member.sets setting value).Writes
      (Json.encodeChars setting.key.toList ++ ':' :: (toString value.toNat).toList) := by
  have h := Member.Writes.mk (m := .sets setting value) Json.blanks_nil
    (Json.literal_encodeChars setting.key.toList) rfl Json.blanks_nil Json.blanks_nil rfl
    Json.blanks_nil
  simpa only [List.nil_append, List.append_nil] using h

/-- The members that are written are members with these values. -/
theorem membersText_renderMembers (value : Setting → UInt64) (setting : Setting)
    (settings : List Setting) :
    MembersText ((setting :: settings).map fun s => .sets s (value s))
      (Json.renderMembers ((setting :: settings).map fun s =>
        (s.key, .number (value s).toNat))).toList := by
  induction settings generalizing setting with
  | nil =>
    have hlast := MembersText.last (Member.writes_sets setting (value setting))
    simpa [Json.renderMembers, Json.encode, Json.render] using hlast
  | cons next settings ih =>
    have hmore := MembersText.more (Member.writes_sets setting (value setting)) (ih next)
    simpa [Json.renderMembers, Json.encode, Json.render] using hmore

/-- The document of settings is an object with a member for each setting. -/
theorem objectText_toJson (settings : Settings) :
    ObjectText (Setting.all.map fun setting => .sets setting (settings.get setting))
      settings.toJson.render.toList := by
  have hmembers := membersText_renderMembers settings.get .cacheCapacity [.maxLength, .maxNesting]
  have hobject := ObjectText.members Json.blanks_nil hmembers Json.blanks_nil
  simpa [toJson, Json.render, Setting.all] using hobject

/-! ### Whole documents -/

/-- An object that names no setting twice sets what it names, and no others. -/
theorem ObjectText.exists_overrides_eq {members : List Member} {text : String}
    (h : ObjectText members text.toList) (hnodup : (named members).Nodup) :
    ∃ o, overridesOfDocument text = .ok o ∧
      (∀ setting value, .sets setting value ∈ members → o setting = some value) ∧
      ∀ setting, setting ∉ named members → o setting = none := by
  have hunset : ∀ setting ∈ named members, Overrides.none setting = none := fun _ _ => rfl
  obtain ⟨o, hrecord, hset, hrest⟩ := record_nodup hnodup hunset
  exact ⟨o, h.overrides_eq.1 o hrecord, hset, hrest⟩

/-- An object that names a setting twice is refused for such a setting. -/
theorem ObjectText.exists_overrides_eq_error {members : List Member} {text : String}
    (h : ObjectText members text.toList) (hdup : ¬ (named members).Nodup) :
    ∃ setting left, 1 < (named members).count setting ∧
      overridesOfDocument text = .error ⟨.duplicateMember setting.key, left⟩ := by
  cases hrecord : members.foldlM record .none with
  | ok o => exact absurd (nodup_of_record hrecord).1 hdup
  | error setting =>
    obtain ⟨left, hread⟩ := h.overrides_eq.2 setting hrecord
    rcases record_error hrecord with ⟨hsome, -⟩ | hcount
    · cases hsome
    · exact ⟨setting, left, hcount, hread⟩

end Settings

end AccessRules
