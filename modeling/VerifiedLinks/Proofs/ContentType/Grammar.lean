import Mathlib
import VerifiedLinks.Proofs.ContentType.Canonical

/-!
# The grammar of content types

A content type may be spelled with blanks around it and in any case.  What counts is the text
without these blanks and in lower case (`ContentType.PlainSpelling`).  It is a word from a list,
or else a media type, that is, two registered names with a slash between them.  Which texts these
are is said by regular languages (`ContentType.mediaTypes`).

The words of the list come first.  But a word is no media type, unless it is that of the content
type for which it stands, so the order of the two does not matter
(`ContentType.eq_mediaType_of_mem_aliases`).  All other words are short
(`ContentType.shortWords`).

The main statement is `ContentType.parse_eq_ok_iff_spells`: what is read from a text is what the
text spells.
-/

namespace VerifiedLinks

namespace Text

/-! ## Trimmed texts -/

/-- What remains of `cs` without the blanks at its two ends is `core`. -/
structure Trimmed (cs core : List Char) : Prop where
  /-- Only blanks are gone. -/
  surrounded : ∃ front back, cs = front ++ core ++ back ∧
    (∀ c ∈ front, isBlank c = true) ∧ ∀ c ∈ back, isBlank c = true
  /-- No blank is left in front. -/
  head : ∀ c, core.head? = some c → isBlank c = false
  /-- No blank is left behind. -/
  last : ∀ c, core.getLast? = some c → isBlank c = false

theorem dropWhile_of_head? {p : Char → Bool} {cs : List Char}
    (h : ∀ c, cs.head? = some c → p c = false) : cs.dropWhile p = cs := by
  cases cs with
  | nil => rfl
  | cons c cs => rw [List.dropWhile_cons, h c rfl, if_neg Bool.false_ne_true]

theorem eq_false_of_head?_dropWhile {p : Char → Bool} {cs : List Char} {c : Char}
    (h : (cs.dropWhile p).head? = some c) : p c = false := by
  have hhead := List.head?_dropWhile_not p cs
  rw [h] at hhead
  exact hhead

theorem Trimmed.trim_eq {cs core : List Char} (h : Trimmed cs core) : trim cs = core := by
  obtain ⟨front, back, rfl, hfront, hback⟩ := h.surrounded
  have hend : trimEnd (core ++ back) = core := by
    have hreverse : ∀ c, core.reverse.head? = some c → isBlank c = false := by
      intro c hc
      rw [List.head?_reverse] at hc
      exact h.last c hc
    rw [trimEnd, List.reverse_append, List.dropWhile_append_of_pos (by simpa using hback),
      dropWhile_of_head? hreverse, List.reverse_reverse]
  rw [trim, List.append_assoc, List.dropWhile_append_of_pos hfront]
  cases core with
  | nil =>
      have hnil : back.dropWhile isBlank = [] := List.dropWhile_eq_nil_iff.mpr hback
      rw [List.nil_append, hnil]
      rfl
  | cons c core =>
      have hhead : ∀ d, (c :: core ++ back).head? = some d → isBlank d = false := h.head
      rw [dropWhile_of_head? hhead, hend]

theorem trimmed_trim (cs : List Char) : Trimmed cs (trim cs) := by
  have hfront := List.takeWhile_append_dropWhile (p := isBlank) (l := cs)
  have hback : trim cs ++ ((cs.dropWhile isBlank).reverse.takeWhile isBlank).reverse =
      cs.dropWhile isBlank := by
    rw [trim, trimEnd, ← List.reverse_append, List.takeWhile_append_dropWhile,
      List.reverse_reverse]
  refine ⟨⟨cs.takeWhile isBlank, ((cs.dropWhile isBlank).reverse.takeWhile isBlank).reverse, ?_,
    fun c hc => List.mem_takeWhile_imp hc, fun c hc => ?_⟩, fun c hc => ?_, fun c hc => ?_⟩
  · rw [List.append_assoc, hback, hfront]
  · exact List.mem_takeWhile_imp (List.mem_reverse.mp hc)
  · have hhead : (cs.dropWhile isBlank).head? = some c := by
      rw [← hback, List.head?_append, hc]
      rfl
    exact eq_false_of_head?_dropWhile hhead
  · rw [trim, trimEnd, List.getLast?_reverse] at hc
    exact eq_false_of_head?_dropWhile hc

theorem trim_eq_iff {cs core : List Char} : trim cs = core ↔ Trimmed cs core := by
  constructor
  · rintro rfl
    exact trimmed_trim cs
  · exact Trimmed.trim_eq

/-- More blanks around a text do not change what remains of it. -/
theorem trim_surrounded {front cs back : List Char} (hfront : ∀ c ∈ front, isBlank c = true)
    (hback : ∀ c ∈ back, isBlank c = true) : trim (front ++ cs ++ back) = trim cs := by
  obtain ⟨⟨front', back', hcs, hfront', hback'⟩, hhead, hlast⟩ := trimmed_trim cs
  rw [trim_eq_iff]
  refine ⟨⟨front ++ front', back' ++ back, ?_, ?_, ?_⟩, hhead, hlast⟩
  · conv_lhs => rw [hcs]
    simp only [List.append_assoc]
  · exact List.forall_mem_append.mpr ⟨hfront, hfront'⟩
  · exact List.forall_mem_append.mpr ⟨hback', hback⟩

/-- A letter is no blank in either case. -/
theorem isBlank_toLower (c : Char) : isBlank c.toLower = isBlank c := by
  by_cases hupper : c.isUpper = true
  · have hrange : 65 ≤ c.toNat ∧ c.toNat ≤ 90 := by
      simpa [Char.isUpper, UInt32.le_iff_toNat_le] using hupper
    have hlower : c.toLower.toNat = c.toNat + 32 := by
      rw [Char.toLower_eq_of_isUpper hupper, Char.toNat_ofNat, if_pos]
      exact Or.inl (by omega)
    have hletter (d : Char) (hd : 65 ≤ d.toNat ∧ d.toNat ≤ 122) : isBlank d = false := by
      simp only [isBlank, Bool.or_eq_false_iff, Bool.and_eq_false_iff, decide_eq_false_iff_not,
        beq_eq_false_iff_ne]
      omega
    rw [hletter c (by omega), hletter c.toLower (by omega)]
  · rw [Char.toLower_eq_of_not_isUpper hupper]

/-- Capitals and blanks may be removed in either order. -/
theorem map_toLower_trim (cs : List Char) :
    (trim cs).map Char.toLower = trim (cs.map Char.toLower) := by
  obtain ⟨⟨front, back, hcs, hfront, hback⟩, hhead, hlast⟩ := trimmed_trim cs
  symm
  rw [trim_eq_iff]
  refine ⟨⟨front.map Char.toLower, back.map Char.toLower, ?_, ?_, ?_⟩, ?_, ?_⟩
  · conv_lhs => rw [hcs]
    simp only [List.map_append]
  · simpa [isBlank_toLower] using hfront
  · simpa [isBlank_toLower] using hback
  · simpa [isBlank_toLower] using hhead
  · simpa [isBlank_toLower] using hlast

end Text

namespace ContentType

open scoped Computability

/-! ## Media types as a language -/

/-- The texts of one character that has the property `p`. -/
def oneChar (p : Char → Prop) : Language Char :=
  {w | ∃ c, p c ∧ w = [c]}

/-- A small letter or a digit. -/
def StartsName (c : Char) : Prop :=
  'a' ≤ c ∧ c ≤ 'z' ∨ '0' ≤ c ∧ c ≤ '9'

/-- A small letter, a digit, or one of nine other characters. -/
def ContinuesName (c : Char) : Prop :=
  StartsName c ∨ c ∈ ['!', '#', '$', '&', '^', '_', '.', '+', '-']

/-- The registered names: `[a-z0-9][a-z0-9!#$&^_.+-]*`. -/
def registeredNames : Language Char :=
  oneChar StartsName * (oneChar ContinuesName)∗

/-- The media types: two registered names with a slash between them. -/
def mediaTypes : Language Char :=
  registeredNames * oneChar (· = '/') * registeredNames

theorem mem_kstar_oneChar_iff {p : Char → Prop} {w : List Char} :
    w ∈ (oneChar p)∗ ↔ ∀ c ∈ w, p c := by
  rw [Language.mem_kstar]
  constructor
  · rintro ⟨pieces, rfl, hpieces⟩ c hc
    obtain ⟨piece, hpiece, hc⟩ := List.mem_flatten.mp hc
    obtain ⟨d, hd, rfl⟩ := hpieces piece hpiece
    rw [List.mem_singleton.mp hc]
    exact hd
  · intro h
    refine ⟨w.map fun c => [c], by simp [← List.flatMap_def], ?_⟩
    rw [List.forall_mem_map]
    exact fun c hc => ⟨c, h c hc, rfl⟩

/-- A registered name is a letter or a digit with characters of names behind it. -/
theorem mem_registeredNames_iff {w : List Char} :
    w ∈ registeredNames ↔ ∃ c cs, w = c :: cs ∧ StartsName c ∧ ∀ d ∈ cs, ContinuesName d := by
  rw [registeredNames, Language.mem_mul]
  constructor
  · rintro ⟨first, ⟨c, hc, rfl⟩, cs, hcs, rfl⟩
    exact ⟨c, cs, rfl, hc, mem_kstar_oneChar_iff.mp hcs⟩
  · rintro ⟨c, cs, rfl, hc, hcs⟩
    exact ⟨[c], ⟨c, hc, rfl⟩, cs, mem_kstar_oneChar_iff.mpr hcs, rfl⟩

/-- A media type is two registered names with a slash between them. -/
theorem mem_mediaTypes_iff {w : List Char} :
    w ∈ mediaTypes ↔
      ∃ type sub, w = type ++ '/' :: sub ∧ type ∈ registeredNames ∧ sub ∈ registeredNames := by
  rw [mediaTypes, Language.mem_mul]
  constructor
  · rintro ⟨front, hfront, sub, hsub, rfl⟩
    obtain ⟨type, htype, slash, ⟨c, rfl, rfl⟩, rfl⟩ := Language.mem_mul.mp hfront
    exact ⟨type, sub, by simp, htype, hsub⟩
  · rintro ⟨type, sub, rfl, htype, hsub⟩
    exact ⟨type ++ ['/'], Language.mem_mul.mpr ⟨type, htype, ['/'], ⟨'/', rfl, rfl⟩, rfl⟩, sub,
      hsub, by simp⟩

/-! ## The reader knows the language -/

theorem isNameStart_iff {c : Char} : isNameStart c = true ↔ StartsName c := by
  simp [isNameStart, StartsName, Char.isLower, Char.isDigit, Char.le_def]

theorem isNameChar_iff {c : Char} : isNameChar c = true ↔ ContinuesName c := by
  simp [isNameChar, ContinuesName, isNameStart_iff]

/-- The test for a name accepts the language of registered names. -/
theorem isName_iff {cs : List Char} : isName cs = true ↔ cs ∈ registeredNames := by
  rw [mem_registeredNames_iff]
  cases cs with
  | nil => simp [isName]
  | cons c cs => simp [isName, isNameStart_iff, isNameChar_iff]

/-- No registered name holds a slash. -/
theorem slash_not_mem_of_isName {cs : List Char} (h : isName cs = true) : '/' ∉ cs := by
  rw [isName_iff, mem_registeredNames_iff] at h
  obtain ⟨c, cs, rfl, hc, hcs⟩ := h
  have hslash : ¬ ContinuesName '/' := by
    rw [← isNameChar_iff]
    decide
  rw [List.mem_cons]
  rintro (rfl | hmem)
  · exact hslash (.inl hc)
  · exact hslash (hcs '/' hmem)

/-- The test for a media type accepts the language of media types. -/
theorem isMediaType_iff {cs : List Char} : isMediaType cs = true ↔ cs ∈ mediaTypes := by
  rw [mem_mediaTypes_iff]
  constructor
  · intro h
    have hsplit := List.takeWhile_append_dropWhile (p := (· != '/')) (l := cs)
    unfold isMediaType at h
    split at h
    · cases h
    next slash sub hdrop =>
      rw [Bool.and_eq_true] at h
      have hhead : (cs.dropWhile (· != '/')).head? = some slash := by rw [hdrop]; rfl
      have hslash : slash = '/' := by simpa using Text.eq_false_of_head?_dropWhile hhead
      subst hslash
      refine ⟨_, sub, ?_, isName_iff.mp h.1, isName_iff.mp h.2⟩
      rw [← hdrop, hsplit]
  · rintro ⟨type, sub, rfl, htype, hsub⟩
    rw [← isName_iff] at htype hsub
    have hno : ∀ c ∈ type, (c != '/') = true := by
      intro c hc
      rw [bne_iff_ne]
      rintro rfl
      exact slash_not_mem_of_isName htype hc
    rw [isMediaType, List.dropWhile_append_of_pos hno, List.takeWhile_append_of_pos hno]
    simp [htype, hsub]

/-! ## Words and media types -/

/-- No word stands for two content types. -/
theorem mem_aliases_iff {s : String} {ct : ContentType} :
    (s, ct) ∈ aliases ↔ aliases.lookup s = some ct := by
  constructor
  · intro h
    have hall : ∀ a ∈ aliases, aliases.lookup a.1 = some a.2 := by
      simp only [aliases, List.forall_mem_cons]
      decide
    exact hall _ h
  · intro h
    obtain ⟨before, behind, hsplit, _⟩ := List.lookup_eq_some_iff.mp h
    rw [hsplit]
    simp

/-- A word that is a media type is that of the content type for which it stands. -/
theorem eq_mediaType_of_mem_aliases {s : String} {ct : ContentType} (h : (s, ct) ∈ aliases)
    (hs : s.toList ∈ mediaTypes) : s = ct.mediaType := by
  have hall : ∀ a ∈ aliases, isMediaType a.1.toList = true → a.1 = a.2.mediaType := by
    simp only [aliases, List.forall_mem_cons]
    decide
  exact hall _ h (isMediaType_iff.mpr hs)

/-- The six content types whose media types are well known. -/
def wellKnown : List ContentType :=
  [json, xml, plainText, html, formUrlEncoded, octetStream]

theorem mem_wellKnown_of_mem_aliases {s : String} {ct : ContentType} (h : (s, ct) ∈ aliases) :
    ct ∈ wellKnown := by
  have hall : ∀ a ∈ aliases, a.2 ∈ wellKnown := by decide
  exact hall _ h

theorem mem_aliases_of_mem_wellKnown {ct : ContentType} (h : ct ∈ wellKnown) :
    (ct.mediaType, ct) ∈ aliases := by
  have hall : ∀ ct ∈ wellKnown, (ct.mediaType, ct) ∈ aliases := by decide
  exact hall ct h

/-! ## What a text spells -/

/-- The text `m` is what remains of `s` without the blanks around it and in lower case. -/
def PlainSpelling (s m : String) : Prop :=
  ∃ core, Text.Trimmed s.toList core ∧ m.toList = core.map Char.toLower

/-- The content type for which a plain spelling stands: that of a word, or another one if the
spelling is a media type and none of the six well-known ones. -/
inductive Spells : String → ContentType → Prop
  | word {m : String} {ct : ContentType} : (m, ct) ∈ aliases → Spells m ct
  | mediaType {m : String} : m.toList ∈ mediaTypes → (∀ ct ∈ wellKnown, m ≠ ct.mediaType) →
      Spells m (other m)

theorem plainSpelling_iff {s m : String} :
    PlainSpelling s m ↔ m = String.ofList ((Text.trim s.toList).map Char.toLower) := by
  constructor
  · rintro ⟨core, hcore, hm⟩
    rw [hcore.trim_eq, ← hm, String.ofList_toList]
  · rintro rfl
    exact ⟨_, Text.trimmed_trim _, String.toList_ofList⟩

/-- A plain spelling is read as what it spells. -/
theorem ofLower?_eq_some_iff {m : String} {ct : ContentType} :
    ofLower? m = some ct ↔ Spells m ct := by
  constructor
  · intro h
    rcases ofLower?_eq_some_cases h with hmem | ⟨rfl, hlookup, hmedia⟩
    · exact .word hmem
    · refine .mediaType (isMediaType_iff.mp hmedia) ?_
      rintro ct hct rfl
      rw [mem_aliases_iff.mp (mem_aliases_of_mem_wellKnown hct)] at hlookup
      cases hlookup
  · intro h
    cases h with
    | word hmem => rw [ofLower?, mem_aliases_iff.mp hmem]
    | mediaType hmedia hunknown =>
        cases hlookup : aliases.lookup m with
        | some ct =>
            have hmem := mem_aliases_iff.mpr hlookup
            exact absurd (eq_mediaType_of_mem_aliases hmem hmedia)
              (hunknown ct (mem_wellKnown_of_mem_aliases hmem))
        | none =>
            rw [ofLower?, hlookup]
            exact if_pos (isMediaType_iff.mpr hmedia)

/-- The words that are no media types, with the content types for which they stand. -/
def shortWords : List (String × ContentType) :=
  [("json", json), ("xml", xml), ("text", plainText), ("plaintext", plainText), ("html", html),
    ("form", formUrlEncoded), ("octet-stream", octetStream)]

/-- The other words are the media types of the well-known content types. -/
theorem mem_aliases_iff_shortWords {a : String × ContentType} :
    a ∈ aliases ↔ a ∈ shortWords ∨ a ∈ wellKnown.map fun ct => (ct.mediaType, ct) := by
  have hwords : aliases.Perm (shortWords ++ wellKnown.map fun ct => (ct.mediaType, ct)) := by decide
  rw [hwords.mem_iff, List.mem_append]

theorem spells_iff {m : String} {ct : ContentType} :
    Spells m ct ↔ (m, ct) ∈ shortWords ∨ (m, ct) ∈ wellKnown.map (fun ct => (ct.mediaType, ct)) ∨
      ct = other m ∧ m.toList ∈ mediaTypes ∧ m ∉ wellKnown.map mediaType := by
  rw [← or_assoc, ← mem_aliases_iff_shortWords]
  have hunknown : m ∉ wellKnown.map mediaType ↔ ∀ ct ∈ wellKnown, m ≠ ct.mediaType := by
    simp only [List.mem_map, not_exists, not_and, eq_comm, ne_eq]
  rw [hunknown]
  constructor
  · intro h
    cases h with
    | word hmem => exact .inl hmem
    | mediaType hmedia hunknown => exact .inr ⟨rfl, hmedia, hunknown⟩
  · intro h
    obtain hmem | ⟨rfl, hmedia, hunknown⟩ := h
    · exact .word hmem
    · exact .mediaType hmedia hunknown

/-- A plain spelling stands for a content type if it is a short word or a media type. -/
theorem exists_spells_iff {m : String} :
    (∃ ct, Spells m ct) ↔ m ∈ shortWords.map Prod.fst ∨ m.toList ∈ mediaTypes := by
  constructor
  · intro ⟨ct, h⟩
    obtain hword | hknown | ⟨_, hmedia, _⟩ := spells_iff.mp h
    · exact .inl (List.mem_map_of_mem hword)
    · have hmedia : ∀ ct ∈ wellKnown, isMediaType ct.mediaType.toList = true := by decide
      obtain ⟨ct', hct', heq⟩ := List.mem_map.mp hknown
      cases heq
      exact .inr (isMediaType_iff.mp (hmedia _ hct'))
    · exact .inr hmedia
  · intro h
    obtain hword | hmedia := h
    · obtain ⟨⟨w, ct⟩, hmem, rfl⟩ := List.mem_map.mp hword
      exact ⟨ct, spells_iff.mpr (.inl hmem)⟩
    · by_cases hknown : ∃ ct ∈ wellKnown, m = ct.mediaType
      · obtain ⟨ct, hct, rfl⟩ := hknown
        exact ⟨ct, .word (mem_aliases_of_mem_wellKnown hct)⟩
      · exact ⟨other m, .mediaType hmedia fun ct hct heq => hknown ⟨ct, hct, heq⟩⟩

/-- No word stands for another content type. -/
theorem Spells.of_other {m m' : String} (h : Spells m (other m')) :
    m = m' ∧ m.toList ∈ mediaTypes ∧ ∀ ct ∈ wellKnown, m ≠ ct.mediaType := by
  cases h with
  | word hmem => simpa [wellKnown] using mem_wellKnown_of_mem_aliases hmem
  | mediaType hmedia hunknown => exact ⟨rfl, hmedia, hunknown⟩

/-- What is read from a text is what it spells. -/
theorem parse_eq_ok_iff_spells {s : String} {ct : ContentType} :
    parse s = .ok ct ↔ ∃ m, PlainSpelling s m ∧ Spells m ct := by
  simp only [parse_eq_ok_iff, plainSpelling_iff, exists_eq_left, ofLower?_eq_some_iff]

end ContentType

end VerifiedLinks
