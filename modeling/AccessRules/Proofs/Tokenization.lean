import AccessRules.Proofs.Scanning

/-!
# Scanning loses and invents nothing

The tokens of a text are its one division into tokens. Every token stands in the text at the byte
that it claims, with what a token of its kind may have behind it; tokens do not overlap; and every
character outside of them is a blank, unless the scan has given up before it. There is no other
list of tokens of which this is true.

## Main definitions

* `Text.StandsAt`: some characters stand in a text at a byte
* `Token.Kind.Fits`: what may stand behind a token of a kind
* `Token.Tokenizes`: the tokens are a division of the text

## Main statements

* `tokenizes_append_of_blank`, `tokenizes_cons`: a division with blanks or a token in front
* `tokenizes_scanFrom`, `Tokenizes.scanFrom_eq`: the scan divides the text, and no other list does
* `scan_eq_iff_tokenizes`: the same for a whole text

## Implementation notes

A division speaks of bytes of the whole text and is followed from the left, so it is stated for a
text that begins at any byte, as the scan is. Positions are then compared by `StandsAt` alone: a
character boundary is the extent of the characters before it.
-/

namespace AccessRules

namespace Text

/-- In the text `cs`, which begins at byte `start`, the characters `s` stand at byte `position`, and
`rest` is what stands behind them. In particular a character begins at `position`, or the text
ends there. -/
def StandsAt (start : Nat) (cs : List Char) (position : Nat) (s rest : List Char) : Prop :=
  ∃ before, cs = before ++ (s ++ rest) ∧ start + extent before = position

/-- Of two ways to cut a text, the one that cuts no later leaves the other's first part longer. -/
theorem append_eq_append_of_extent_le {ws xs ys zs : List Char} (h : ws ++ xs = ys ++ zs)
    (hle : extent ws ≤ extent ys) : ∃ ms, ys = ws ++ ms ∧ xs = ms ++ zs := by
  rcases List.append_eq_append_iff.mp h with ⟨ms, hys, hxs⟩ | ⟨ms, hws, hzs⟩
  · exact ⟨ms, hys, hxs⟩
  · have hms : ms = [] := by
      rw [hws, extent_append] at hle
      exact extent_eq_zero.mp (by omega)
    subst hms
    exact ⟨[], by simpa using hws.symm, by simpa using hzs.symm⟩

namespace StandsAt

variable {start position : Nat} {pre cs s rest : List Char}

theorem start_le (h : StandsAt start cs position s rest) : start ≤ position := by
  obtain ⟨before, -, rfl⟩ := h
  exact Nat.le_add_right _ _

/-- What stands at the front of a text. -/
theorem eq_append (h : StandsAt start cs start s rest) : cs = s ++ rest := by
  obtain ⟨before, rfl, hposition⟩ := h
  have hbefore : before = [] := extent_eq_zero.mp (by omega)
  rw [hbefore, List.nil_append]

theorem front (start : Nat) (s rest : List Char) : StandsAt start (s ++ rest) start s rest :=
  ⟨[], rfl, rfl⟩

/-- What stands in a text stands there too when more is put before the text. -/
theorem append_left (h : StandsAt (start + extent pre) cs position s rest) :
    StandsAt start (pre ++ cs) position s rest := by
  obtain ⟨before, rfl, rfl⟩ := h
  exact ⟨pre ++ before, by rw [List.append_assoc], by rw [extent_append, Nat.add_assoc]⟩

/-- What stands behind the first part of a text stands in the second. -/
theorem of_append_left (h : StandsAt start (pre ++ cs) position s rest)
    (hposition : start + extent pre ≤ position) :
    StandsAt (start + extent pre) cs position s rest := by
  obtain ⟨before, heq, rfl⟩ := h
  obtain ⟨ms, rfl, hcs⟩ := append_eq_append_of_extent_le heq (by omega)
  exact ⟨ms, hcs, by rw [extent_append, Nat.add_assoc]⟩

/-- What ends in the first part of a text stands in it. -/
theorem of_append_right (h : StandsAt start (pre ++ cs) position s rest)
    (hend : position + extent s ≤ start + extent pre) :
    ∃ rest', rest = rest' ++ cs ∧ StandsAt start pre position s rest' := by
  obtain ⟨before, heq, rfl⟩ := h
  rw [← List.append_assoc] at heq
  obtain ⟨rest', hpre, hrest⟩ :=
    append_eq_append_of_extent_le heq.symm (by rw [extent_append]; omega)
  exact ⟨rest', hrest, before, by rw [hpre, List.append_assoc], rfl⟩

/-- What stands in a text stands there too when more is put behind the text. -/
theorem append_right (h : StandsAt start cs position s rest) (behind : List Char) :
    StandsAt start (cs ++ behind) position s (rest ++ behind) := by
  obtain ⟨before, rfl, hposition⟩ := h
  exact ⟨before, by simp only [List.append_assoc], hposition⟩

/-- What stands in a text ends in it. -/
theorem end_le (h : StandsAt start cs position s rest) :
    position + extent s ≤ start + extent cs := by
  obtain ⟨before, rfl, rfl⟩ := h
  simp only [extent_append]
  omega

/-- A character that stands before the second part of a text is one of the first part. -/
theorem mem_of_lt {c : Char} (h : StandsAt start (pre ++ cs) position (c :: s) rest)
    (hposition : position < start + extent pre) : c ∈ pre := by
  obtain ⟨before, heq, rfl⟩ := h
  obtain ⟨ms, rfl, hms⟩ := append_eq_append_of_extent_le heq.symm (by omega)
  cases ms with
  | nil =>
    rw [List.append_nil] at hposition
    omega
  | cons d ms =>
    obtain rfl : c = d := (List.cons.inj hms).1
    simp

end StandsAt

end Text

namespace Token

open Text

/-- The byte behind a token. -/
def stop (t : Token) : Nat :=
  t.position + extent t.kind.text.toList

/-- What a token of a kind has to be like where `rest` stands behind it. A word goes on as long as
there are word characters, and it is a truth value if it reads as one. A character is unrecognized
if it belongs to no token. -/
def Kind.Fits (rest : List Char) : Kind → Prop
  | opening | closing | and | or => True
  | literal _ => ∀ c ∈ rest.head?, isWordChar c = false
  | pattern text => IsName text ∧ ∀ c ∈ rest.head?, isWordChar c = false
  | unrecognized char =>
    isBlank char = false ∧ char ≠ '(' ∧ char ≠ ')' ∧ isWordChar char = false ∧
      (char = '|' ∨ char = '&' → rest.head? ≠ some char)

/-- The tokens `ts` are a division of the text `cs`, which begins at byte `start`. -/
structure Tokenizes (start : Nat) (cs : List Char) (ts : List Token) : Prop where
  /-- Every token stands at its position, and it fits what stands behind it. -/
  stands : ∀ t ∈ ts, ∃ rest, StandsAt start cs t.position t.kind.text.toList rest ∧ t.kind.Fits rest
  /-- The positions increase. -/
  increasing : ts.Pairwise fun t u => t.position < u.position
  /-- No two tokens overlap. -/
  disjoint : ts.Pairwise fun t u => t.stop ≤ u.position
  /-- A character that is no blank belongs to a token, or it stands behind an unrecognized
  character. -/
  covered : ∀ position c rest, StandsAt start cs position [c] rest → isBlank c = false →
    (∃ t ∈ ts, t.position ≤ position ∧ position < t.stop) ∨
      ∃ t ∈ ts, (∃ d, t.kind = .unrecognized d) ∧ t.stop ≤ position
  /-- Only the last token may be unrecognized. -/
  unrecognized_last : ts.Pairwise fun t _ => ∀ c, t.kind ≠ .unrecognized c

/-! ### Single tokens -/

/-- A token has a character, and does not begin with a blank. -/
theorem Kind.Fits.exists_cons {kind : Kind} {rest : List Char} (h : kind.Fits rest) :
    ∃ c cs, kind.text.toList = c :: cs ∧ isBlank c = false := by
  cases kind with
  | opening | closing | and | or => exact ⟨_, _, rfl, by decide⟩
  | literal value => cases value <;> exact ⟨_, _, rfl, by decide⟩
  | pattern text =>
    obtain ⟨c, cs, htext⟩ := List.exists_cons_of_ne_nil h.1.ne_nil
    exact ⟨c, cs, htext, isBlank_of_isWordChar (h.1.wordChars c (by simp [htext]))⟩
  | unrecognized c => exact ⟨c, [], String.toList_singleton .., h.1⟩

theorem Kind.Fits.extent_pos {kind : Kind} {rest : List Char} (h : kind.Fits rest) :
    0 < extent kind.text.toList := by
  obtain ⟨c, cs, htext, -⟩ := h.exists_cons
  rw [htext, extent_cons]
  have := c.utf8Size_pos
  omega

/-- A word fits where no word character follows. -/
theorem Kind.fits_ofWord {word rest : List Char} (hne : word ≠ [])
    (hword : ∀ c ∈ word, isWordChar c = true) (hrest : ∀ c ∈ rest.head?, isWordChar c = false) :
    (Kind.ofWord word).Fits rest := by
  cases hkind : Kind.ofWord word with
  | literal value => exact hrest
  | pattern text => exact ⟨isName_of_ofWord hne hword hkind, hrest⟩
  | opening | closing | and | or => trivial
  | unrecognized c => exact absurd hkind (ofWord_ne_unrecognized word c)

/-- What fits is scanned as a token, and the scan goes on behind it. -/
theorem Kind.Fits.scanFrom {kind : Kind} {rest : List Char} (h : kind.Fits rest)
    (hrecognized : ∀ c, kind ≠ .unrecognized c) (position : Nat) :
    Token.scanFrom position (kind.text.toList ++ rest) =
      ⟨kind, position⟩ :: Token.scanFrom (position + extent kind.text.toList) rest := by
  cases kind with
  | opening => exact scanFrom_opening position rest
  | closing => exact scanFrom_closing position rest
  | and =>
    have hpair : operatorAt '&' ('&' :: rest) = some .and := rfl
    exact scanFrom_operator hpair position
  | or =>
    have hpair : operatorAt '|' ('|' :: rest) = some .or := rfl
    exact scanFrom_operator hpair position
  | literal value =>
    have hword : (literal value).text.toList ≠ [] ∧
        ∀ c ∈ (literal value).text.toList, isWordChar c = true := by
      cases value <;> exact ⟨by decide, List.all_eq_true.mp (by decide)⟩
    have hkind : ofWord (literal value).text.toList = literal value := by
      cases value <;> rfl
    have hscan := scanFrom_word_append hword.1 hword.2 h position
    rwa [hkind] at hscan
  | pattern text =>
    obtain ⟨hname, hrest⟩ := h
    have hscan := scanFrom_word_append hname.ne_nil hname.wordChars hrest position
    rwa [hname.ofWord_toList] at hscan
  | unrecognized c => exact absurd rfl (hrecognized c)

/-- The scan gives up at a character that belongs to no token. -/
theorem scanFrom_unrecognized {c : Char} {rest : List Char}
    (h : (Kind.unrecognized c).Fits rest) (position : Nat) :
    scanFrom position (c :: rest) = [⟨.unrecognized c, position⟩] := by
  obtain ⟨hblank, hopening, hclosing, hword, hpair⟩ := h
  have hoperator : operatorAt c rest = none := by
    rw [operatorAt]
    split
    · next hhead =>
      rw [if_neg fun hc => hpair (.inl hc) hhead, if_neg fun hc => hpair (.inr hc) hhead]
    · rfl
  rw [scanFrom, if_neg (by simp [hblank]), if_neg hopening, if_neg hclosing,
    if_neg (by simp [hword]), hoperator]

/-! ### Divisions with something in front -/

section Front

variable {start : Nat} {gap cs : List Char} {t : Token} {ts : List Token}

/-- The tokens of a division begin where the text does, or later. -/
theorem Tokenizes.start_le (h : Tokenizes start cs ts) (ht : t ∈ ts) : start ≤ t.position := by
  obtain ⟨rest, hstands, -⟩ := h.stands t ht
  exact hstands.start_le

/-- No token begins among blanks. -/
theorem Tokenizes.le_position (h : Tokenizes start (gap ++ cs) ts)
    (hgap : ∀ c ∈ gap, isBlank c = true) (ht : t ∈ ts) : start + extent gap ≤ t.position := by
  obtain ⟨rest, hstands, hfits⟩ := h.stands t ht
  obtain ⟨c, s, htext, hc⟩ := hfits.exists_cons
  rw [htext] at hstands
  refine Nat.le_of_not_lt fun hlt => ?_
  rw [hgap c (hstands.mem_of_lt hlt)] at hc
  exact Bool.noConfusion hc

/-- **Blanks in front of a text change nothing but the byte where it begins.** -/
theorem tokenizes_append_of_blank (hgap : ∀ c ∈ gap, isBlank c = true) :
    Tokenizes start (gap ++ cs) ts ↔ Tokenizes (start + extent gap) cs ts := by
  constructor
  · intro h
    refine ⟨fun t ht => ?_, h.increasing, h.disjoint, fun position c rest hc hblank => ?_,
      h.unrecognized_last⟩
    · obtain ⟨rest, hstands, hfits⟩ := h.stands t ht
      exact ⟨rest, hstands.of_append_left (h.le_position hgap ht), hfits⟩
    · exact h.covered position c rest hc.append_left hblank
  · intro h
    refine ⟨fun t ht => ?_, h.increasing, h.disjoint, fun position c rest hc hblank => ?_,
      h.unrecognized_last⟩
    · obtain ⟨rest, hstands, hfits⟩ := h.stands t ht
      exact ⟨rest, hstands.append_left, hfits⟩
    · by_cases hposition : start + extent gap ≤ position
      · exact h.covered position c rest (hc.of_append_left hposition) hblank
      · rw [hgap c (hc.mem_of_lt (Nat.lt_of_not_le hposition))] at hblank
        exact Bool.noConfusion hblank

/-- **A token in front of a text** belongs to the division if it fits what follows. -/
theorem tokenizes_cons {kind : Kind} (hrecognized : ∀ c, kind ≠ .unrecognized c) :
    Tokenizes start (kind.text.toList ++ cs) (⟨kind, start⟩ :: ts) ↔
      kind.Fits cs ∧ Tokenizes (start + extent kind.text.toList) cs ts := by
  constructor
  · intro h
    have hlater : ∀ t ∈ ts, start + extent kind.text.toList ≤ t.position :=
      (List.pairwise_cons.mp h.disjoint).1
    refine ⟨?_, fun t ht => ?_, (List.pairwise_cons.mp h.increasing).2,
      (List.pairwise_cons.mp h.disjoint).2, fun position c rest hc hblank => ?_,
      (List.pairwise_cons.mp h.unrecognized_last).2⟩
    · obtain ⟨rest, hstands, hfits⟩ := h.stands _ List.mem_cons_self
      rwa [List.append_cancel_left hstands.eq_append]
    · obtain ⟨rest, hstands, hfits⟩ := h.stands t (List.mem_cons_of_mem _ ht)
      exact ⟨rest, hstands.of_append_left (hlater t ht), hfits⟩
    · rcases h.covered position c rest hc.append_left hblank with
        ⟨t, ht, hle, hlt⟩ | ⟨t, ht, hunrecognized, hle⟩
      · rcases List.mem_cons.mp ht with rfl | ht
        · exact absurd hc.start_le (Nat.not_le.mpr hlt)
        · exact .inl ⟨t, ht, hle, hlt⟩
      · rcases List.mem_cons.mp ht with rfl | ht
        · obtain ⟨d, hd⟩ := hunrecognized
          exact absurd hd (hrecognized d)
        · exact .inr ⟨t, ht, hunrecognized, hle⟩
  · rintro ⟨hfits, h⟩
    have hlater : ∀ t ∈ ts, start + extent kind.text.toList ≤ t.position := fun t ht =>
      h.start_le ht
    have hpositive := hfits.extent_pos
    refine ⟨fun t ht => ?_, List.pairwise_cons.mpr ⟨fun t ht => ?_, h.increasing⟩,
      List.pairwise_cons.mpr ⟨hlater, h.disjoint⟩, fun position c rest hc hblank => ?_,
      List.pairwise_cons.mpr ⟨fun _ _ => hrecognized, h.unrecognized_last⟩⟩
    · rcases List.mem_cons.mp ht with rfl | ht
      · exact ⟨cs, .front start _ cs, hfits⟩
      · obtain ⟨rest, hstands, hfits⟩ := h.stands t ht
        exact ⟨rest, hstands.append_left, hfits⟩
    · have := hlater t ht
      show start < t.position
      omega
    · by_cases hposition : start + extent kind.text.toList ≤ position
      · rcases h.covered position c rest (hc.of_append_left hposition) hblank with
          ⟨t, ht, hcovers⟩ | ⟨t, ht, hbehind⟩
        · exact .inl ⟨t, List.mem_cons_of_mem _ ht, hcovers⟩
        · exact .inr ⟨t, List.mem_cons_of_mem _ ht, hbehind⟩
      · exact .inl ⟨_, List.mem_cons_self, hc.start_le, Nat.lt_of_not_le hposition⟩

/-- Behind an unrecognized character anything may stand. -/
theorem tokenizes_unrecognized {c : Char} (h : (Kind.unrecognized c).Fits cs) :
    Tokenizes start (c :: cs) [⟨.unrecognized c, start⟩] := by
  have hstands : StandsAt start (c :: cs) start (Kind.unrecognized c).text.toList cs := by
    rw [Kind.text, String.toList_singleton]
    exact .front start [c] cs
  refine ⟨fun t ht => ?_, List.pairwise_singleton _ _, List.pairwise_singleton _ _,
    fun position d rest hd _ => ?_, List.pairwise_singleton _ _⟩
  · obtain rfl := List.mem_singleton.mp ht
    exact ⟨cs, hstands, h⟩
  · by_cases hposition : position < (⟨.unrecognized c, start⟩ : Token).stop
    · exact .inl ⟨_, List.mem_cons_self, hd.start_le, hposition⟩
    · exact .inr ⟨_, List.mem_cons_self, ⟨c, rfl⟩, Nat.le_of_not_lt hposition⟩

end Front

/-! ### The scan is the one division -/

/-- **The scan divides its text.** -/
theorem tokenizes_scanFrom (start : Nat) (cs : List Char) :
    Tokenizes start cs (scanFrom start cs) := by
  fun_induction scanFrom start cs with
  | case1 start =>
    refine ⟨by simp, .nil, .nil, ?_, .nil⟩
    rintro position c rest ⟨before, hnil, -⟩
    simp at hnil
  | case2 start c cs hblank ih =>
    have hgap : ∀ d ∈ [c], isBlank d = true := by simpa using hblank
    exact (tokenizes_append_of_blank hgap).mpr ih
  | case3 start cs hblank ih =>
    exact (tokenizes_cons (show ∀ c, Kind.opening ≠ .unrecognized c by simp)).mpr ⟨trivial, ih⟩
  | case4 start cs hblank hopening ih =>
    exact (tokenizes_cons (show ∀ c, Kind.closing ≠ .unrecognized c by simp)).mpr ⟨trivial, ih⟩
  | case5 start c cs hblank hopening hclosing hword word ih =>
    have hchars : ∀ d ∈ word, isWordChar d = true := by
      intro d hd
      rcases List.mem_cons.mp hd with rfl | hd
      · exact hword
      · exact List.mem_takeWhile_imp hd
    have hstop : ∀ d ∈ (cs.dropWhile isWordChar).head?, isWordChar d = false := by
      intro d hd
      have hnot := List.head?_dropWhile_not isWordChar cs
      rwa [Option.mem_def.mp hd] at hnot
    have hfits := Kind.fits_ofWord (List.cons_ne_nil _ _) hchars hstop
    rw [← Kind.toList_text_ofWord word] at ih
    have hcons := (tokenizes_cons (Kind.ofWord_ne_unrecognized word)).mpr ⟨hfits, ih⟩
    rwa [Kind.toList_text_ofWord, List.cons_append, List.takeWhile_append_dropWhile] at hcons
  | case6 start c cs hblank hopening hclosing hword operator hoperator ih =>
    obtain ⟨⟨rfl, rfl⟩ | ⟨rfl, rfl⟩, ds, rfl⟩ := operatorAt_eq_some hoperator
    · exact (tokenizes_cons (show ∀ c, Kind.or ≠ .unrecognized c by simp)).mpr ⟨trivial, ih⟩
    · exact (tokenizes_cons (show ∀ c, Kind.and ≠ .unrecognized c by simp)).mpr ⟨trivial, ih⟩
  | case7 start c cs hblank hopening hclosing hword hoperator =>
    refine tokenizes_unrecognized ⟨by simpa using hblank, hopening, hclosing, by simpa using hword,
      ?_⟩
    rintro hc hhead
    rcases hc with rfl | rfl <;> simp [operatorAt, hhead] at hoperator

/-- A text without tokens is blank. -/
theorem Tokenizes.isBlank_of_nil {start : Nat} {cs : List Char} (h : Tokenizes start cs []) :
    ∀ c ∈ cs, isBlank c = true := by
  intro c hc
  obtain ⟨before, behind, rfl⟩ := List.append_of_mem hc
  rw [← Bool.not_eq_false]
  intro hblank
  simpa using h.covered _ c behind ⟨before, rfl, rfl⟩ hblank

/-- A character that is no blank has the first token begin at it. -/
theorem Tokenizes.position_of_cons {start : Nat} {c : Char} {cs : List Char} {t : Token}
    {ts : List Token} (h : Tokenizes start (c :: cs) (t :: ts)) (hc : isBlank c = false) :
    t.position = start := by
  have hat : ∃ u ∈ t :: ts, u.position ≤ start := by
    rcases h.covered start c cs (.front start [c] cs) hc with ⟨u, hu, hle, -⟩ | ⟨u, hu, -, hle⟩
    · exact ⟨u, hu, hle⟩
    · exact ⟨u, hu, Nat.le_trans (Nat.le_add_right _ _) hle⟩
  obtain ⟨u, hu, hle⟩ := hat
  have hfirst : t.position ≤ u.position := by
    rcases List.mem_cons.mp hu with rfl | hu
    · exact Nat.le_refl _
    · exact Nat.le_of_lt ((List.pairwise_cons.mp h.increasing).1 u hu)
  exact Nat.le_antisymm (Nat.le_trans hfirst hle) (h.start_le List.mem_cons_self)

/-- **No other list divides the text.** The blanks in front are skipped, and then the first token
begins at the first character that is none. -/
theorem Tokenizes.scanFrom_eq {start : Nat} {cs : List Char} {ts : List Token}
    (h : Tokenizes start cs ts) : scanFrom start cs = ts := by
  induction ts generalizing start cs with
  | nil => exact scanFrom_of_blank h.isBlank_of_nil start
  | cons t ts ih =>
    have hgap : ∀ c ∈ cs.takeWhile isBlank, isBlank c = true := fun c hc =>
      List.mem_takeWhile_imp hc
    have hfront := List.head?_dropWhile_not isBlank cs
    rw [← List.takeWhile_append_dropWhile (p := isBlank) (l := cs)] at h ⊢
    rw [scanFrom_append_of_blank hgap]
    rw [tokenizes_append_of_blank hgap] at h
    generalize start + extent (cs.takeWhile isBlank) = start at h ⊢
    generalize cs.dropWhile isBlank = body at h hfront ⊢
    obtain ⟨rest, hstands, hfits⟩ := h.stands t List.mem_cons_self
    obtain ⟨c, s, htext, -⟩ := hfits.exists_cons
    obtain ⟨kind, position⟩ := t
    cases body with
    | nil =>
      obtain ⟨before, hnil, -⟩ := hstands
      simp [htext] at hnil
    | cons d body =>
      obtain rfl : position = start := h.position_of_cons hfront
      rw [hstands.eq_append] at h ⊢
      by_cases hrecognized : ∀ c, kind ≠ .unrecognized c
      · rw [hfits.scanFrom hrecognized, ih ((tokenizes_cons hrecognized).mp h).2]
      · obtain ⟨c, rfl⟩ : ∃ c, kind = .unrecognized c := by
          simpa using hrecognized
        have hlast : ts = [] := by
          cases ts with
          | nil => rfl
          | cons u us =>
            exact absurd rfl ((List.pairwise_cons.mp h.unrecognized_last).1 u List.mem_cons_self c)
        rw [Kind.text, String.toList_singleton, List.singleton_append, hlast]
        exact scanFrom_unrecognized hfits position

/-- **Scanning loses and invents nothing.** The tokens of a text are its one division into
tokens. -/
theorem scan_eq_iff_tokenizes (text : String) (ts : List Token) :
    scan text = ts ↔ Tokenizes 0 text.toList ts := by
  constructor
  · rintro rfl
    exact tokenizes_scanFrom 0 text.toList
  · exact Tokenizes.scanFrom_eq

end Token

end AccessRules
