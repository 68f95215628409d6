import VerifiedLinks.ContentType
import VerifiedLinks.Proofs.Text.Endings
import VerifiedLinks.Proofs.Text.Quoted

/-!
# Lists of tags

A list of content types is shown as their tags between brackets.  A content type that is not
well known is quoted, so brackets and commas in it are not taken for those of the list.  The
other tags are words of letters.  So a list of tags is told apart from what follows it
(`tagList_append_inj`).
-/

namespace VerifiedLinks.ContentType

/-! ## Tags -/

/-- The tag of a well-known content type. -/
def word : ContentType → String
  | other _ => ""
  | ct => ct.tag

/-- The tag of a content type that is not well known. -/
def literal : ContentType → String
  | other m => Text.quoted m
  | _ => ""

theorem tag_eq (ct : ContentType) : ct.tag = ct.word ++ ct.literal := by
  cases ct <;> simp [word, literal, tag]

theorem isAlpha_of_mem_word (ct : ContentType) : ∀ c ∈ ct.word.toList, c.isAlpha = true := by
  cases ct <;> exact List.all_eq_true.mp rfl

theorem word_eq_empty_iff {ct : ContentType} : ct.word = "" ↔ ∃ m, ct = other m := by
  cases ct <;> simp [word, tag]

/-- The well-known content type with this word. -/
def ofWord? (w : String) : Option ContentType :=
  [json, xml, plainText, html, formUrlEncoded, octetStream].find? fun ct => ct.word == w

/-- The word of a content type tells which one it is. -/
theorem ofWord?_word {ct : ContentType} (h : ct.word ≠ "") : ofWord? ct.word = some ct := by
  cases ct with
  | other m => exact absurd rfl h
  | json | xml | plainText | html | formUrlEncoded | octetStream => rfl

/-- A tag can be read back in front of anything that does not begin with a letter. -/
theorem tag_append_inj {ct ct' : ContentType} {x y : String} (hx : Text.StopsAt Char.isAlpha x)
    (hy : Text.StopsAt Char.isAlpha y) (h : ct.tag ++ x = ct'.tag ++ y) : ct = ct' ∧ x = y := by
  have hstop {ct : ContentType} {x : String} (hx : Text.StopsAt Char.isAlpha x) :
      Text.StopsAt Char.isAlpha (ct.literal ++ x) := by
    cases ct with
    | other m => exact (Text.stopsAt_append (Text.head?_quoted m)).mpr rfl
    | _ => simpa [literal] using hx
  rw [tag_eq, tag_eq, String.append_assoc, String.append_assoc] at h
  obtain ⟨hword, hrest⟩ := Text.append_inj_of_all ct.isAlpha_of_mem_word ct'.isAlpha_of_mem_word
    (hstop hx) (hstop hy) h
  by_cases hempty : ct.word = ""
  · obtain ⟨m, rfl⟩ := word_eq_empty_iff.mp hempty
    obtain ⟨m', rfl⟩ := word_eq_empty_iff.mp (hword ▸ hempty)
    obtain ⟨rfl, hxy⟩ := Text.quoted_append_inj hrest
    exact ⟨rfl, hxy⟩
  · have hsome : some ct = some ct' := by
      rw [← ofWord?_word hempty, hword, ofWord?_word (hword ▸ hempty)]
    cases hsome
    exact ⟨rfl, (String.append_right_inj _).mp hrest⟩

theorem stopsAt_tag (ct : ContentType) (x : String) :
    Text.StopsAt (· == ']') (ct.tag ++ x) := by
  cases ct with
  | other m => exact (Text.stopsAt_append (Text.head?_quoted m)).mpr rfl
  | json | xml | plainText | html | formUrlEncoded | octetStream =>
      exact (Text.stopsAt_append rfl).mpr rfl

/-- A list of tags from behind its opening bracket, or from behind one of its tags.  Only the
separator in front of the next tag differs. -/
def tagsFrom (separator : String) : List ContentType → String
  | [] => "]"
  | ct :: cts => separator ++ (ct.tag ++ tagsFrom ", " cts)

theorem tagList_eq (cts : List ContentType) : tagList cts = "'[" ++ tagsFrom "" cts := by
  have hjoin : ", ".intercalate (cts.map tag) ++ "]" = tagsFrom "" cts := by
    induction cts with
    | nil => rfl
    | cons ct cts ih =>
        cases cts with
        | nil => rfl
        | cons ct' cts =>
            rw [List.map_cons, List.map_cons, String.intercalate_cons_cons, String.append_assoc,
              ← List.map_cons, ih]
            simp only [tagsFrom, String.append_assoc, String.empty_append]
  rw [tagList, String.append_assoc, hjoin]

theorem tagsFrom_cons_append (separator : String) (ct : ContentType) (cts : List ContentType)
    (x : String) :
    tagsFrom separator (ct :: cts) ++ x = separator ++ (ct.tag ++ (tagsFrom ", " cts ++ x)) := by
  rw [tagsFrom, String.append_assoc, String.append_assoc]

theorem stopsAt_tagsFrom (cts : List ContentType) (x : String) :
    Text.StopsAt Char.isAlpha (tagsFrom ", " cts ++ x) := by
  cases cts with
  | nil => exact (Text.stopsAt_append rfl).mpr rfl
  | cons ct cts =>
      rw [tagsFrom_cons_append]
      exact (Text.stopsAt_append rfl).mpr rfl

/-- A list that is at its end does not go on. -/
theorem tagsFrom_nil_ne {separator : String}
    (hsep : ∀ ct x, Text.StopsAt (· == ']') (separator ++ (tag ct ++ x))) {ct : ContentType}
    {cts : List ContentType} {x y : String} :
    tagsFrom separator [] ++ x ≠ tagsFrom separator (ct :: cts) ++ y := by
  intro h
  have hstop := hsep ct (tagsFrom ", " cts ++ y)
  rw [← tagsFrom_cons_append, ← h, tagsFrom] at hstop
  exact absurd ((Text.stopsAt_append rfl).mp hstop) (by decide)

/-- A list of tags can be read back in front of anything. -/
theorem tagsFrom_append_inj {separator : String} {cts cts' : List ContentType} {x y : String}
    (hsep : ∀ ct x, Text.StopsAt (· == ']') (separator ++ (tag ct ++ x)))
    (h : tagsFrom separator cts ++ x = tagsFrom separator cts' ++ y) : cts = cts' ∧ x = y := by
  induction cts generalizing separator cts' with
  | nil =>
      cases cts' with
      | nil => exact ⟨rfl, (String.append_right_inj _).mp h⟩
      | cons ct' cts' => exact absurd h (tagsFrom_nil_ne hsep)
  | cons ct cts ih =>
      cases cts' with
      | nil => exact absurd h.symm (tagsFrom_nil_ne hsep)
      | cons ct' cts' =>
          rw [tagsFrom_cons_append, tagsFrom_cons_append, String.append_right_inj] at h
          obtain ⟨rfl, hrest⟩ :=
            tag_append_inj (stopsAt_tagsFrom cts x) (stopsAt_tagsFrom cts' y) h
          obtain ⟨rfl, hxy⟩ := ih (fun _ _ => (Text.stopsAt_append rfl).mpr rfl) hrest
          exact ⟨rfl, hxy⟩

/-- A list of tags is told apart from what follows it. -/
theorem tagList_append_inj {cts cts' : List ContentType} {x y : String}
    (h : tagList cts ++ x = tagList cts' ++ y) : cts = cts' ∧ x = y := by
  rw [tagList_eq, tagList_eq, String.append_assoc, String.append_assoc,
    String.append_right_inj] at h
  refine tagsFrom_append_inj (fun ct x => ?_) h
  rw [String.empty_append]
  exact stopsAt_tag ct x

end VerifiedLinks.ContentType
