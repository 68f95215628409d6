import VerifiedLinks.Proofs.ContentType.Grammar
import VerifiedLinks.Proofs.Manifest.RoundTrip
import VerifiedLinks.Proofs.Route.Offers

/-!
# Content types as media types

Content types that were read are equal exactly if their media types are equal as texts
(`ContentType.Canonical.eq_iff`).  Of content types that are built by hand this is not true:
`json` and `other "application/json"` have the same media type.

Containment compares content types and nothing else of them.  So they may be exchanged for
others, as long as the new ones tell apart what the old ones told apart
(`Route.contains_mapContentTypes`).  For routes that were read, the texts of the media types do
(`Route.contains_withTexts`).

The main statement is `ContentType.parse_canonicalizes`.
-/

namespace VerifiedLinks

/-! ## Content types told apart -/

/-- The mapping tells apart any two content types of which one is in each list. -/
def Separates (f : ContentType → ContentType) (cts ds : List ContentType) : Prop :=
  ∀ ct ∈ cts, ∀ d ∈ ds, f ct = f d → ct = d

section

variable {f : ContentType → ContentType} {cts ds : List ContentType}

theorem Separates.mono {cts' ds' : List ContentType} (h : Separates f cts ds)
    (hcts : cts' ⊆ cts) (hds : ds' ⊆ ds) : Separates f cts' ds' :=
  fun ct hct d hd => h ct (hcts hct) d (hds hd)

/-- Lists that are separated can be compared by their images. -/
theorem Separates.eq_of_map_eq (h : Separates f cts ds) (hmap : cts.map f = ds.map f) :
    cts = ds := by
  induction cts generalizing ds with
  | nil => exact (List.map_eq_nil_iff.mp hmap.symm).symm
  | cons ct cts ih =>
      cases ds with
      | nil => cases hmap
      | cons d ds =>
          obtain ⟨hhead, htail⟩ := List.cons.inj hmap
          rw [h ct List.mem_cons_self d List.mem_cons_self hhead,
            ih (h.mono (List.subset_cons_self ct cts) (List.subset_cons_self d ds)) htail]

theorem Separates.subset_of_map_subset (h : Separates f cts ds) (hmap : ds.map f ⊆ cts.map f) :
    ds ⊆ cts := by
  intro d hd
  obtain ⟨ct, hct, heq⟩ := List.mem_map.mp (hmap (List.mem_map_of_mem hd))
  rwa [← h ct hct d hd heq]

/-! ## Nodes with other content types -/

theorem Step.Admits.map {s t : Step} (h : s.Admits t) :
    (s.mapContentTypes f).Admits (t.mapContentTypes f) := by
  cases h with
  | same => exact .same _
  | segment literal name type => exact .segment literal name type
  | capture name type name' type' => exact .capture name type name' type'

/-- If content types are separated, no more steps are admitted after they are replaced. -/
theorem Step.Admits.of_map {s t : Step} (hf : Separates f s.contentTypes t.contentTypes)
    (h : (s.mapContentTypes f).Admits (t.mapContentTypes f)) : s.Admits t := by
  rcases s.body_or_no_contentTypes with ⟨cts, type, rfl⟩ | ⟨hs, _, hsmap⟩
  · rcases t.body_or_no_contentTypes with ⟨ds, type', rfl⟩ | ⟨ht, _, htmap⟩
    · have hbody := Step.admits_modifier_iff.mp h
      simp only [Step.mapContentTypes, Modifier.mapContentTypes, Step.modifier.injEq,
        Modifier.body.injEq] at hbody
      obtain ⟨hmap, rfl⟩ := hbody
      have hlists : cts = ds := Separates.eq_of_map_eq hf hmap.symm
      rw [hlists]
      exact .same _
    · rw [htmap] at h
      rw [Step.admits_modifier_iff.mp h] at ht
      exact absurd rfl ht
  · rcases t.body_or_no_contentTypes with ⟨ds, type', rfl⟩ | ⟨_, _, htmap⟩
    · rw [hsmap] at h
      rw [h.eq_modifier] at hs
      exact absurd rfl hs
    · rwa [hsmap, htmap] at h

theorem Verb.Admits.map {v w : Verb} (h : v.Admits w) :
    (v.mapContentTypes f).Admits (w.mapContentTypes f) :=
  ⟨h.method, h.response, List.map_subset f h.contentTypes⟩

theorem Verb.Admits.of_map {v w : Verb} (hf : Separates f v.contentTypes w.contentTypes)
    (h : (v.mapContentTypes f).Admits (w.mapContentTypes f)) : v.Admits w :=
  ⟨h.method, h.response, hf.subset_of_map_subset h.contentTypes⟩

end

namespace Route

/-! ## Routes with other content types -/

variable {f : ContentType → ContentType} {a t : Route}

/-- What is offered is still offered if content types are replaced on both sides. -/
theorem Offers.map (h : Offers a t) : Offers (a.mapContentTypes f) (t.mapContentTypes f) := by
  induction h with
  | left _ ih => exact .left ih
  | right _ ih => exact .right ih
  | step hs _ ih => exact .step hs.map ih
  | pass _ ih => exact .pass ih
  | verb hv => exact .verb hv.map

/-- Nothing more is offered then, if they are separated. -/
theorem Offers.of_map (hf : Separates f a.contentTypes t.contentTypes)
    (h : Offers (a.mapContentTypes f) (t.mapContentTypes f)) : Offers a t := by
  induction a generalizing t with
  | alt l r ihl ihr =>
      cases h with
      | left h =>
          exact .left (ihl (hf.mono (List.subset_append_left _ _) (List.Subset.refl _)) h)
      | right h =>
          exact .right (ihr (hf.mono (List.subset_append_right _ _) (List.Subset.refl _)) h)
  | step s a ih =>
      have hbelow : a.contentTypes ⊆ (Route.step s a).contentTypes := List.subset_append_right _ _
      rw [mapContentTypes] at h
      generalize hs : s.mapContentTypes f = s' at h
      generalize ht : t.mapContentTypes f = t' at h
      cases h with
      | step hadmits h =>
          cases t with
          | alt l r => cases ht
          | verb w => cases ht
          | step u t =>
              cases ht
              subst hs
              refine .step (.of_map (hf.mono ?_ ?_) hadmits) (ih (hf.mono hbelow ?_) h)
              · exact List.subset_append_left _ _
              · exact List.subset_append_left _ _
              · exact List.subset_append_right _ _
      | pass h =>
          subst ht
          cases s with
          | segment literal => cases hs
          | capture name type => cases hs
          | modifier m => exact .pass (ih (hf.mono hbelow (List.Subset.refl _)) h)
  | verb v =>
      cases t with
      | alt l r => cases h
      | step s t => cases h
      | verb w =>
          cases h with
          | verb hw => exact .verb (.of_map hf hw)

/-- Nothing of a content type matters to containment but which ones it is equal to. -/
theorem contains_mapContentTypes (hf : Separates f a.contentTypes t.contentTypes) :
    (a.mapContentTypes f).contains (t.mapContentTypes f) = a.contains t := by
  rw [Bool.eq_iff_iff, contains_iff_offers, contains_iff_offers]
  exact ⟨Offers.of_map hf, Offers.map⟩

end Route

/-! ## Content types that were read -/

namespace ContentType

/-- Canonical content types are told apart by their media types. -/
theorem Canonical.eq_iff {ct ct' : ContentType} (h : ct.Canonical) (h' : ct'.Canonical) :
    ct = ct' ↔ ct.mediaType = ct'.mediaType := by
  constructor
  · rintro rfl
    rfl
  · intro heq
    have hread := canonical_iff.mp h
    rw [heq, canonical_iff.mp h'] at hread
    cases hread
    rfl

/-- The content type as nothing but the text of its media type. -/
def asText (ct : ContentType) : ContentType :=
  other ct.mediaType

/-- Canonical content types can be compared as texts. -/
theorem separates_asText {cts ds : List ContentType} (hcts : ∀ ct ∈ cts, ct.Canonical)
    (hds : ∀ d ∈ ds, d.Canonical) : Separates asText cts ds := by
  intro ct hct d hd heq
  rw [asText, asText, other.injEq] at heq
  exact ((hcts ct hct).eq_iff (hds d hd)).mpr heq

/-- The text `s'` spells the same as `s`: it is `s` in any case, with any blanks around it. -/
def Respells (s s' : String) : Prop :=
  ∃ front core back, s'.toList = front ++ core ++ back ∧
    (∀ c ∈ front, Text.isBlank c = true) ∧ (∀ c ∈ back, Text.isBlank c = true) ∧
    core.map Char.toLower = s.toList.map Char.toLower

/-- Blanks around a text and capitals in it do not change what content type it is read as. -/
theorem parse_of_respells {s s' : String} {ct : ContentType} (hs : Respells s s')
    (h : parse s = .ok ct) : parse s' = .ok ct := by
  obtain ⟨front, core, back, hs', hfront, hback, hcore⟩ := hs
  rw [parse_eq_ok_iff] at h ⊢
  rw [hs', Text.trim_surrounded hfront hback, Text.map_toLower_trim, hcore,
    ← Text.map_toLower_trim]
  exact h

end ContentType

/-! ## Routes that were read -/

namespace Route

/-- A route that is read has canonical content types. -/
theorem canonical_of_ofText {s : String} {r : Route} (h : ofText s = .ok r) :
    ∀ ct ∈ r.contentTypes, ct.Canonical := by
  obtain ⟨r', hr, h⟩ := bind_eq_ok.mp h
  split at h
  · cases h
    exact (fits_ofDraft hr).canonical
  · cases h

/-- The route with nothing of its content types but the texts of their media types. -/
def withTexts (r : Route) : Route :=
  r.mapContentTypes ContentType.asText

/-- Containment can be decided on media types. -/
theorem contains_withTexts {a t : Route} (ha : ∀ ct ∈ a.contentTypes, ct.Canonical)
    (ht : ∀ ct ∈ t.contentTypes, ct.Canonical) :
    a.withTexts.contains t.withTexts = a.contains t :=
  contains_mapContentTypes (ContentType.separates_asText ha ht)

end Route

namespace ContentType

/-- Reading a content type brings it into one form.

* A text spells one exactly if it is a short word or a media type, once the blanks around it
  are gone and its letters are small.
* A word and the media type of a well-known content type stand for that one, and any other media
  type for itself.  So if a text spells another one than those that are well known, then by a
  media type that is not well known.
* What was read is read again from its media type, and from the same text in any case and with
  any blanks around it.
* Two that were read are equal exactly if their media types are.  So it makes no difference to
  containment if routes that were read, alone or in a manifest, are compared by the texts of
  their media types. -/
theorem parse_canonicalizes :
    (∀ s, (∃ ct, parse s = .ok ct) ↔ ∃ m, PlainSpelling s m ∧
      (m ∈ ["json", "xml", "text", "plaintext", "html", "form", "octet-stream"] ∨
        m.toList ∈ mediaTypes)) ∧
    (∀ s ct, parse s = .ok ct ↔ ∃ m, PlainSpelling s m ∧
      ((m, ct) ∈ [("json", json), ("xml", xml), ("text", plainText), ("plaintext", plainText),
          ("html", html), ("form", formUrlEncoded), ("octet-stream", octetStream)] ∨
        (m, ct) ∈ [("application/json", json), ("application/xml", xml),
          ("text/plain", plainText), ("text/html", html),
          ("application/x-www-form-urlencoded", formUrlEncoded),
          ("application/octet-stream", octetStream)] ∨
        ct = other m ∧ m.toList ∈ mediaTypes ∧
          m ∉ ["application/json", "application/xml", "text/plain", "text/html",
            "application/x-www-form-urlencoded", "application/octet-stream"])) ∧
    (∀ s m, parse s = .ok (other m) →
      m.toList ∈ mediaTypes ∧ ∀ ct ∈ wellKnown, m ≠ ct.mediaType) ∧
    (∀ s ct, parse s = .ok ct →
      parse ct.mediaType = .ok ct ∧ ∀ s', Respells s s' → parse s' = .ok ct) ∧
    (∀ s s' ct ct', parse s = .ok ct → parse s' = .ok ct' →
      (ct = ct' ↔ ct.mediaType = ct'.mediaType)) ∧
    (∀ s s' a t, Route.ofText s = .ok a → Route.ofText s' = .ok t →
      a.withTexts.contains t.withTexts = a.contains t) ∧
    (∀ s m, Manifest.ofText s = .ok m → ∀ e ∈ m.links.entries,
      m.api.withTexts.contains e.2.withTexts = m.api.contains e.2) := by
  refine ⟨fun s => ?_, fun s ct => ?_, fun s m h => ?_,
    fun s ct h => ⟨?_, fun s' hs => parse_of_respells hs h⟩, fun s s' ct ct' h h' => ?_,
    fun s s' a t ha ht => ?_, fun s m hm e he => ?_⟩
  · simp only [parse_eq_ok_iff_spells]
    rw [exists_comm]
    exact exists_congr fun m => exists_and_left.trans (and_congr_right fun _ => exists_spells_iff)
  · rw [parse_eq_ok_iff_spells]
    exact exists_congr fun m => and_congr_right fun _ => spells_iff
  · obtain ⟨m', _, hm⟩ := parse_eq_ok_iff_spells.mp h
    obtain ⟨rfl, hmedia, hunknown⟩ := hm.of_other
    exact ⟨hmedia, hunknown⟩
  · exact canonical_iff.mp ⟨s, h⟩
  · exact Canonical.eq_iff ⟨s, h⟩ ⟨s', h'⟩
  · exact Route.contains_withTexts (Route.canonical_of_ofText ha) (Route.canonical_of_ofText ht)
  · have hfits := Manifest.fits_readUnchecked (Manifest.ofText_eq_ok_iff.mp hm).1
    exact Route.contains_withTexts hfits.api.canonical (hfits.links e he).canonical

end ContentType

/-- Rows in some content types. -/
def Route.rows (cts : List ContentType) : Route :=
  verb { method := .get, contentTypes := cts, response := some "Rows" }

/-- Rows in two content types, of which a link wants one. -/
def Manifest.csvLink : Manifest where
  api := .rows [.json, .other "text/csv"]
  links := NameMap.empty.insert "csv" (.rows [.other "text/csv"])

namespace ContentType

/-- A short word, a media type that is not well known, in three spellings, and routes that were
read with it. -/
theorem parse_canonicalizes_csv :
    parse " FORM\n" = .ok formUrlEncoded ∧
      parse " Text/CSV" = .ok (other "text/csv") ∧
      (∃ m, PlainSpelling " Text/CSV" m ∧
        (m ∈ ["json", "xml", "text", "plaintext", "html", "form", "octet-stream"] ∨
          m.toList ∈ mediaTypes)) ∧
      "text/csv".toList ∈ mediaTypes ∧ "text/csv" ≠ plainText.mediaType ∧
      parse "text/csv" = .ok (other "text/csv") ∧
      parse " TEXT/csv\u3000\n" = .ok (other "text/csv") ∧
      (plainText = other "text/csv" ↔ "text/plain" = "text/csv") ∧
      (Route.rows [plainText]).withTexts.contains
        (Route.rows [.other "text/csv"]).withTexts = false ∧
      Manifest.csvLink.api.withTexts.contains
        (Route.rows [.other "text/csv"]).withTexts = true := by
  obtain ⟨haccepts, hreads, hother, hagain, heq, hroutes, hmanifests⟩ := parse_canonicalizes
  have hform : PlainSpelling " FORM\n" "form" := plainSpelling_iff.mpr rfl
  have hcsv : parse " Text/CSV" = .ok (other "text/csv") := rfl
  have hplain : parse "text" = .ok plainText := rfl
  have hrespells : Respells " Text/CSV" " TEXT/csv\u3000\n" :=
    ⟨[], " TEXT/csv".toList, ['\u3000', '\n'], by simp, by simp, List.all_eq_true.mp rfl, by simp⟩
  have hread (ct : ContentType) (h : ct.Canonical) :
      Route.ofText (Route.rows [ct]).toText = .ok (Route.rows [ct]) := by
    have hdepth : (Route.rows [ct]).toValue.depth = 2 := rfl
    have hcanonical : ∀ ct' ∈ (Route.rows [ct]).contentTypes, ct'.Canonical := by
      intro ct' hct'
      rwa [List.mem_singleton.mp hct']
    rw [Route.ofText_toText_eq (by rw [hdepth]; decide)]
    exact Route.ofValue_toValue_of_canonical hcanonical
  have hlink : Manifest.ofText Manifest.csvLink.toText = .ok Manifest.csvLink :=
    Manifest.ofText_toText_iff.mpr ⟨rfl, rfl⟩
  have hmember : ("csv", Route.rows [.other "text/csv"]) ∈ Manifest.csvLink.links.entries :=
    List.mem_singleton_self _
  refine ⟨(hreads _ _).mpr ⟨_, hform, .inl (by decide)⟩, hcsv, (haccepts _).mp ⟨_, hcsv⟩,
    (hother _ _ hcsv).1, (hother _ _ hcsv).2 _ (by decide), (hagain _ _ hcsv).1,
    (hagain _ _ hcsv).2 _ hrespells, heq _ _ _ _ hplain hcsv, ?_, ?_⟩
  · rw [hroutes _ _ _ _ (hread _ ⟨_, hplain⟩) (hread _ ⟨_, hcsv⟩)]
    decide
  · rw [hmanifests _ _ hlink _ hmember]
    decide

end ContentType

end VerifiedLinks
