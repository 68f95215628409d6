import VerifiedLinks.ContentType

/-!
# Canonical content types

A content type is *canonical* if it was read from some text.  Then it is also read from
its own media type (`ContentType.canonical_iff`), so it is written and read back
unchanged.  The others are built by hand, such as `other "json"`, and reading turns
them into something else.

The reason is that a media type without an alias is a text in which neither trimming
nor lower case changes anything (`ContentType.lower_of_isMediaType`).
-/

namespace VerifiedLinks

namespace Text

theorem dropWhile_of_all_not {α : Type} {p : α → Bool} {xs : List α} (h : ∀ x ∈ xs, p x = false) :
    xs.dropWhile p = xs := by
  cases xs with
  | nil => rfl
  | cons x xs => rw [List.dropWhile_cons, h x List.mem_cons_self, if_neg Bool.false_ne_true]

theorem trim_of_no_blank {cs : List Char} (h : ∀ c ∈ cs, isBlank c = false) : trim cs = cs := by
  have hreverse : ∀ c ∈ cs.reverse, isBlank c = false := by
    simpa using h
  rw [trim, trimEnd, dropWhile_of_all_not h, dropWhile_of_all_not hreverse, List.reverse_reverse]

end Text

namespace ContentType

/-! ## Media types -/

/-- A character of a media type is no blank and no capital. -/
def IsPlain (c : Char) : Prop := Text.isBlank c = false ∧ c.toLower = c

theorem isPlain_of_isNameStart {c : Char} (h : isNameStart c = true) : IsPlain c := by
  have hrange : 97 ≤ c.toNat ∧ c.toNat ≤ 122 ∨ 48 ≤ c.toNat ∧ c.toNat ≤ 57 := by
    change (decide ('a'.val ≤ c.val) && decide (c.val ≤ 'z'.val) || c.isDigit) = true at h
    simpa [Char.isDigit, UInt32.le_iff_toNat_le] using h
  constructor
  · simp only [Text.isBlank, Bool.or_eq_false_iff, Bool.and_eq_false_iff, decide_eq_false_iff_not,
      beq_eq_false_iff_ne]
    omega
  · refine dif_neg fun hupper => ?_
    have hle : c.toNat ≤ 90 ∧ 65 ≤ c.toNat := by
      simpa [UInt32.le_iff_toNat_le] using hupper.symm
    omega

/-- The characters of a registered name are neither blanks nor capitals. -/
theorem isPlain_of_isNameChar {c : Char} (h : isNameChar c = true) : IsPlain c := by
  rw [isNameChar, Bool.or_eq_true] at h
  cases h with
  | inl h => exact isPlain_of_isNameStart h
  | inr h =>
      have hall : ("!#$&^_.+-".toList.all fun d => !Text.isBlank d && d.toLower == d) = true := rfl
      have hc := List.all_eq_true.mp hall c (List.contains_iff_mem.mp h)
      simpa [IsPlain] using hc

theorem forall_isPlain_of_isName {cs : List Char} (h : isName cs = true) : ∀ c ∈ cs, IsPlain c := by
  cases cs with
  | nil => simp
  | cons c cs =>
      rw [isName, Bool.and_eq_true, List.all_eq_true] at h
      exact List.forall_mem_cons.mpr
        ⟨isPlain_of_isNameStart h.1, fun c hc => isPlain_of_isNameChar (h.2 c hc)⟩

theorem forall_isPlain_of_isMediaType {cs : List Char} (h : isMediaType cs = true) :
    ∀ c ∈ cs, IsPlain c := by
  rw [← List.takeWhile_append_dropWhile (p := (· != '/')) (l := cs)]
  unfold isMediaType at h
  split at h
  · cases h
  next slash sub hdrop =>
    rw [Bool.and_eq_true] at h
    rw [hdrop, List.forall_mem_append, List.forall_mem_cons]
    have hslash : slash = '/' := by
      have hhead := List.head?_dropWhile_not (· != '/') cs
      rw [hdrop] at hhead
      simpa using hhead
    have hplain : IsPlain '/' := ⟨rfl, rfl⟩
    exact ⟨forall_isPlain_of_isName h.1, hslash ▸ hplain, forall_isPlain_of_isName h.2⟩

/-- A media type is spelled as it is kept. -/
theorem lower_of_isMediaType {s : String} (h : isMediaType s.toList = true) :
    String.ofList ((Text.trim s.toList).map Char.toLower) = s := by
  have hplain := forall_isPlain_of_isMediaType h
  rw [Text.trim_of_no_blank fun c hc => (hplain c hc).1,
    List.map_congr_left fun c hc => (hplain c hc).2]
  simp

/-! ## Reading again -/

/-- The content type was read from some text. -/
def Canonical (ct : ContentType) : Prop := ∃ s, parse s = .ok ct

/-- The media type of a well-known content type is one of its words. -/
theorem parse_mediaType_of_mem_aliases {s : String} {ct : ContentType} (h : (s, ct) ∈ aliases) :
    parse ct.mediaType = .ok ct := by
  have hknown : ∀ a ∈ aliases, ∀ m, a.2 ≠ other m := by
    simp [aliases]
  cases ct with
  | other m => exact absurd rfl (hknown _ h m)
  | json => rfl
  | xml => rfl
  | plainText => rfl
  | html => rfl
  | formUrlEncoded => rfl
  | octetStream => rfl

/-- A word is known, or it is a media type that is not well known. -/
theorem ofLower?_eq_some_cases {s : String} {ct : ContentType} (h : ofLower? s = some ct) :
    (s, ct) ∈ aliases ∨ ct = other s ∧ aliases.lookup s = none ∧ isMediaType s.toList = true := by
  unfold ofLower? at h
  split at h
  next ct' hlookup =>
    cases h
    obtain ⟨before, behind, hsplit, _⟩ := List.lookup_eq_some_iff.mp hlookup
    rw [hsplit]
    simp
  next hlookup =>
    split at h
    next hmedia =>
      cases h
      exact .inr ⟨rfl, hlookup, hmedia⟩
    · cases h

/-- A text is read without the blanks at its ends and in small letters. -/
theorem parse_eq_ok_iff {s : String} {ct : ContentType} :
    parse s = .ok ct ↔
      ofLower? (String.ofList ((Text.trim s.toList).map Char.toLower)) = some ct := by
  unfold parse
  split
  next ct' h => simp [h]
  next h => simp [h]

/-- A canonical content type is one that is read from its own media type. -/
theorem canonical_iff {ct : ContentType} : ct.Canonical ↔ parse ct.mediaType = .ok ct := by
  refine ⟨?_, fun h => ⟨_, h⟩⟩
  rintro ⟨s, h⟩
  rcases ofLower?_eq_some_cases (parse_eq_ok_iff.mp h) with hmem | ⟨rfl, hlookup, hmedia⟩
  · exact parse_mediaType_of_mem_aliases hmem
  · rw [mediaType, parse_eq_ok_iff, lower_of_isMediaType hmedia, ofLower?, hlookup]
    exact if_pos hmedia

end ContentType

end VerifiedLinks
