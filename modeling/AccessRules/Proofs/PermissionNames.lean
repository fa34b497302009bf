import AccessRules.Builtin
import AccessRules.Permission.OfJson
import AccessRules.Proofs.StringLiterals

/-!
# Names survive JSON

A permission is written as a JSON string and read back from one. Whatever its name is, and in
whichever way each of its characters is written, the name is the text that the string denotes. This
is so for every library that reads and writes strings as the format has it, character by character.

## Main definitions

* `Json.quoted`: the text of a string, with blanks around it
* `JsonLibrary.StringFormat`: what a library promises about strings

## Main statements

* `JsonLibrary.StringFormat.readString_quoted`: a string is read as the text that it denotes
* `Permission.document_denotes_name`: the documents of a permission
* `Builtin.stringFormat`: the built-in library keeps the promises

## Implementation notes

A promise is about one character in front of a string that is read already. That a string of any
length and any mix of spellings is read is proved, along the grammar of strings.
-/

namespace AccessRules

open Json (Blanks Literal Denotes Escape Spells isPlain)

/-- The text of a string with this inside, and blanks around it. -/
def Json.quoted (b body b' : List Char) : String :=
  String.ofList (b ++ '"' :: (body ++ '"' :: b'))

/-- What a library promises about strings. -/
structure JsonLibrary.StringFormat [JsonLibrary] : Prop where
  /-- A string with nothing between its quotes is the empty text. -/
  empty {b b' : List Char} (hb : Blanks b) (hb' : Blanks b') :
    readString (Json.quoted b [] b') = .ok ""
  /-- A plain character stands for itself. -/
  plain {b body b' name : List Char} {c : Char} (hb : Blanks b) (hb' : Blanks b')
    (hbody : Denotes body name) (hc : isPlain c = true)
    (hread : readString (Json.quoted b body b') = .ok (.ofList name)) :
    readString (Json.quoted b (c :: body) b') = .ok (.ofList (c :: name))
  /-- An escape stands for the character that it denotes. -/
  escape {b ws body b' name : List Char} {c : Char} (hb : Blanks b) (hb' : Blanks b')
    (hbody : Denotes body name) (hc : Escape c ws)
    (hread : readString (Json.quoted b body b') = .ok (.ofList name)) :
    readString (Json.quoted b ('\\' :: (ws ++ body)) b') = .ok (.ofList (c :: name))
  /-- A text is written character by character, each in a way that spells it. -/
  written : ∃ spelling : Char → List Char, (∀ c, Spells c (spelling c)) ∧
    ∀ text : String, render (.string text) = Json.quoted [] (text.toList.flatMap spelling) []

namespace JsonLibrary.StringFormat

variable [JsonLibrary] {b body b' name : List Char}

/-- **A string is read as the text that it denotes.** -/
theorem readString_quoted (hlib : StringFormat) (hb : Blanks b) (hb' : Blanks b')
    (h : Denotes body name) : readString (Json.quoted b body b') = .ok (.ofList name) := by
  induction h with
  | nil => exact hlib.empty hb hb'
  | plain hc hbody ih => exact hlib.plain hb hb' hbody hc ih
  | escape hc hbody ih => exact hlib.escape hb hb' hbody hc ih

/-- **What is written is a string that denotes the text.** -/
theorem exists_render_eq (hlib : StringFormat) (text : String) :
    ∃ body, Denotes body text.toList ∧ render (.string text) = Json.quoted [] body [] := by
  obtain ⟨spelling, hspelling, hrender⟩ := hlib.written
  exact ⟨_, Json.denotes_flatMap hspelling text.toList, hrender text⟩

end JsonLibrary.StringFormat

namespace Permission

section

variable [JsonLibrary]

/-- The document of a permission is a string that denotes its name. -/
theorem literal_written (hlib : JsonLibrary.StringFormat) (p : Permission) :
    Literal p.written.toList p.name.toList := by
  obtain ⟨body, hbody, hrender⟩ := hlib.exists_render_eq p.name
  rw [written, toJson, hrender, Json.quoted, String.toList_ofList]
  exact .mk hbody

/-- A permission is read from every string that denotes its name. -/
theorem ofJson_of_literal (hlib : JsonLibrary.StringFormat) {text : String} {p : Permission}
    {b cs b' : List Char} (hb : Blanks b) (hcs : Literal cs p.name.toList) (hb' : Blanks b')
    (htext : text.toList = b ++ (cs ++ b')) : ofJson text = .ok p := by
  cases hcs with
  | @mk body _ hbody =>
    have hquoted : text = Json.quoted b body b' := by
      rw [Json.quoted, ← String.toList_inj, String.toList_ofList, htext, List.cons_append,
        List.append_assoc, List.singleton_append]
    rw [ofJson, hquoted, hlib.readString_quoted hb hb' hbody, String.ofList_toList]
    rfl

/-- **Reading undoes writing**, for every name. -/
theorem ofJson_written (hlib : JsonLibrary.StringFormat) (p : Permission) :
    ofJson p.written = .ok p := by
  have htext : p.written.toList = [] ++ (p.written.toList ++ []) := by simp
  exact ofJson_of_literal hlib Json.blanks_nil (literal_written hlib p) Json.blanks_nil htext

/-- **Names survive JSON.** The document of a permission is a string that denotes its name, without
a wrapper, and it is read as the permission. Every string that denotes the name of a permission, in
whichever of the possible ways each character is written, with blanks around it, is read as that
permission. So writing what was read, and reading that, gives the same permission. -/
theorem document_denotes_name (hlib : JsonLibrary.StringFormat) :
    (∀ p : Permission, Literal p.written.toList p.name.toList ∧ ofJson p.written = .ok p) ∧
    (∀ (text : String) (p : Permission) (b cs b' : List Char), Blanks b →
      Literal cs p.name.toList → Blanks b' → text.toList = b ++ (cs ++ b') →
      ofJson text = .ok p) ∧
    ∀ text p, ofJson text = .ok p → ofJson p.written = ofJson text := by
  refine ⟨fun p => ⟨literal_written hlib p, ofJson_written hlib p⟩,
    fun text p b cs b' hb hcs hb' htext => ofJson_of_literal hlib hb hcs hb' htext,
    fun text p h => ?_⟩
  rw [ofJson_written hlib, h]

end

end Permission

/-! ### The built-in library -/

section

open scoped Builtin

/-- The built-in library reads a string as the text that it denotes. -/
theorem Builtin.readString_quoted {b body b' name : List Char} (hb : Blanks b) (hb' : Blanks b')
    (h : Json.Denotes body name) :
    JsonLibrary.readString (Json.quoted b body b') = .ok (.ofList name) := by
  have hread : Json.textOfDocument (Json.quoted b body b') = .ok (.ofList name) := by
    refine Json.textOfDocument_eq_ok_iff.mpr ⟨b, '"' :: (body ++ ['"']), b', hb, ?_, hb', ?_⟩
    · rw [String.toList_ofList]
      exact .mk h
    · simp [Json.quoted]
  change (Json.textOfDocument (Json.quoted b body b')).mapError _ = _
  rw [hread]
  rfl

/-- **The built-in library keeps the promises.** -/
theorem Builtin.stringFormat : JsonLibrary.StringFormat where
  empty hb hb' := readString_quoted hb hb' .nil
  plain hb hb' hbody hc _ := readString_quoted hb hb' (.plain hc hbody)
  escape hb hb' hbody hc _ := readString_quoted hb hb' (.escape hc hbody)
  written := by
    refine ⟨Json.escapeChar, Json.spells_escapeChar, fun text => ?_⟩
    change Json.render (.string text) = _
    simp [Json.render, Json.encode, Json.encodeChars, Json.quoted]

/-- A name with a plain character, a short escape, the number of a letter and a surrogate pair. -/
theorem Permission.document_denotes_name_mixed_escapes :
    JsonLibrary.StringFormat ∧
      ofJson " \"é\\/\\u004A\\uD83d\\uDe00\" " = .ok ⟨"é/J😀"⟩ ∧
      ofJson (written ⟨"é/J😀"⟩) = ofJson " \"é\\/\\u004A\\uD83d\\uDe00\" " := by
  have hletter : Escape 'J' ['u', '0', '0', '4', 'A'] := .unit (Json.hexUnit_of_readHex_eq rfl)
  have hface : Escape '😀' ['u', 'D', '8', '3', 'd', '\\', 'u', 'D', 'e', '0', '0'] :=
    @Escape.pair '😀' ['D', '8', '3', 'd'] ['D', 'e', '0', '0'] (by decide)
      (Json.hexUnit_of_readHex_eq rfl) (Json.hexUnit_of_readHex_eq rfl)
  have hslash : Escape '/' ['/'] := .short (by decide)
  have hbody := Denotes.plain (c := 'é') (by decide)
    (.escape hslash (.escape hletter (.escape hface .nil)))
  have hspace : Blanks [' '] := List.all_eq_true.mp (by decide)
  obtain ⟨-, hliterals, hstable⟩ := document_denotes_name Builtin.stringFormat
  have hread := hliterals " \"é\\/\\u004A\\uD83d\\uDe00\" " ⟨"é/J😀"⟩ [' '] _ [' '] hspace
    (.mk hbody) hspace (by decide +kernel)
  exact ⟨Builtin.stringFormat, hread, hstable _ _ hread⟩

end

end AccessRules
