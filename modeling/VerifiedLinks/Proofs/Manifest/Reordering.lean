import VerifiedLinks.Proofs.Manifest.RoundTrip
import VerifiedLinks.Proofs.Manifest.Verify
import VerifiedLinks.Proofs.Route.Reordering

/-!
# Manifests in another order

A manifest is read from its value with the members of all objects in any order, and with
any spaces between the tokens.  This goes for `api` and `links`, for the targets, whose
names are all different, and for every node of every route.

The main statement is `Manifest.ofText_of_reordered`.
-/

namespace VerifiedLinks.Manifest

open Json (Value Draft ReadError)

/-- The content types of all routes of a manifest. -/
def contentTypes (m : Manifest) : List ContentType :=
  m.api.contentTypes ++ m.links.entries.flatMap fun e => e.2.contentTypes

/-- A manifest with canonical content types fits if it is not too deep. -/
theorem fits_of_depth_le {room : Nat} {m : Manifest} (hcts : ∀ ct ∈ m.contentTypes, ct.Canonical)
    (hdepth : m.toValue.depth ≤ room + 1) : m.Fits room := by
  obtain ⟨hapi, hlinks⟩ := List.forall_mem_append.mp hcts
  rw [toValue, Value.depth_object_le_iff, List.forall_mem_cons, List.forall_mem_singleton] at hdepth
  obtain ⟨hapiDepth, hlinksDepth⟩ := hdepth
  have hfits : m.api.Fits room := ⟨hapi, hapiDepth⟩
  rw [← Nat.sub_add_cancel hfits.room_pos, Value.depth_object_le_iff, List.forall_mem_map]
    at hlinksDepth
  refine ⟨hfits, fun e he => ⟨fun ct hct => ?_, hlinksDepth e he⟩⟩
  exact hlinks ct (List.mem_flatMap.mpr ⟨e, he, hct⟩)

/-- The targets are read in any order. -/
theorem readLinks_of_reordered {room : Nat} {links : NameMap Route} {v : Value}
    (hfits : TargetsFit room links)
    (hv : (Value.object (links.entries.map fun e => (e.1, e.2.toValue))).Reordered v) :
    readLinks (room + 1) v.draft = .ok links := by
  obtain ⟨ms₁, ms₂, rfl, hms, hperm⟩ := hv.of_object
  have hread : List.Forall₂ (fun e m => e.1 = m.1 ∧ Route.ofDraft room m.2.draft = .ok e.2)
      links.entries ms₁ := by
    rw [List.forall₂_map_left_iff] at hms
    have hboth := (List.forall₂_and_left _ _).mpr ⟨hfits, hms⟩
    exact hboth.imp fun e m ⟨he, hname, hm⟩ => ⟨hname, he.ofDraft_of_reordered hm⟩
  obtain ⟨es, hes, hread⟩ : Relation.Comp List.Perm (List.Forall₂ _) links.entries ms₂ := by
    rw [← List.forall₂_comp_perm_eq_perm_comp_forall₂]
    exact ⟨ms₁, hread, hperm⟩
  rw [readLinks_eq hread, NameMap.insertAll_eq_of_perm hes.symm]

/-- A manifest that fits is read from its members in any order. -/
theorem Fits.ofDraft_of_reordered {room : Nat} {m : Manifest} {v : Value} (h : m.Fits room)
    (hv : m.toValue.Reordered v) : Manifest.ofDraft room v.draft = .ok m := by
  obtain ⟨ms₁, ms₂, rfl, hms, hperm⟩ := hv.of_object
  obtain ⟨u, _, rfl, hu, hms⟩ := Value.members_cons_cases hms
  obtain ⟨w, _, rfl, hw, ⟨⟩⟩ := Value.members_cons_cases hms
  have hlinks := readLinks_of_reordered h.links hw
  rw [Nat.sub_add_cancel h.api.room_pos] at hlinks
  exact ofDraft_eq (h.api.ofDraft_of_reordered hu) hlinks hperm.symm

/-- A manifest whose content types were read, whose trees are well formed and whose text
is not nested too deeply is read from any text that comes from its own one by permuting
the members of objects and by putting spaces between tokens. -/
theorem ofText_of_reordered {m : Manifest} (hcts : ∀ ct ∈ m.contentTypes, ct.Canonical)
    (hapi : m.api.WellFormed) (hlinks : ∀ e ∈ m.links.entries, e.2.WellFormed)
    (hdepth : Json.Token.mostOpen 0 (Json.Token.ofText m.toText) ≤ Json.maxDepth)
    {v : Value} (hv : m.toValue.Reordered v) {s : String}
    (hs : Json.Token.Spaced v.tokens s.toList) : ofText s = .ok m := by
  rw [mostOpen_toText] at hdepth
  have hfits : m.Fits (Json.maxDepth - 1) := fits_of_depth_le hcts hdepth
  rw [ofText_eq_ok_iff, readUnchecked_of_spaced hs, hfits.ofDraft_of_reordered hv,
    validate_eq_ok_iff]
  exact ⟨rfl, hapi, hlinks⟩

/-- A manifest with two targets. -/
def withTwoTargets : Manifest where
  api := .step (.segment "a")
    (.verb { method := .get, contentTypes := [.json, .other "text/csv"], response := some "T" })
  links := (NameMap.empty.insert "x" (.verb .delete)).insert "y" (.verb .delete)

/-- The value of this manifest with the members of all objects the other way round. -/
def withTwoTargetsReversed : Value :=
  let delete := Value.object [("method", .text "DELETE"), ("kind", .text "verb")]
  .object [
    ("links", .object [("y", delete), ("x", delete)]),
    ("api", .object [
      ("rest", .object [
        ("response", .text "T"),
        ("content_types", .array [.text "application/json", .text "text/csv"]),
        ("method", .text "GET"),
        ("kind", .text "verb")]),
      ("literal", .text "a"),
      ("kind", .text "segment")])]

/-- The members of all objects change places. -/
theorem reordered_withTwoTargets : withTwoTargets.toValue.Reordered withTwoTargetsReversed := by
  have hreverse (ms : List (String × Value)) : ms.Perm ms.reverse := (List.reverse_perm ms).symm
  have hverb (v : Verb) : (Route.verb v).toValue.Reordered
      (.object (("kind", .text Kind.verb.name) :: v.members).reverse) :=
    .single (.here (hreverse _))
  have hmember {name : String} {v w : Value} (h : v.Reordered w) :
      Value.MemberReordered (name, v) (name, w) := ⟨rfl, h⟩
  refine Value.reordered_object (.cons (hmember ?_) (.cons (hmember ?_) .nil)) (hreverse _)
  · exact Value.reordered_object
      (.cons (hmember (.refl _)) (.cons (hmember (.refl _)) (.cons (hmember (hverb _)) .nil)))
      (hreverse _)
  · exact Value.reordered_object
      (.cons (hmember (hverb .delete)) (.cons (hmember (hverb .delete)) .nil)) (hreverse _)

/-- The text of the reversed value, with a line end and a blank in front of each token. -/
theorem ofText_of_reordered_withTwoTargets :
    ofText (String.ofList (Json.Token.spaceOut ['\n', ' '] withTwoTargetsReversed.tokens)) =
      .ok withTwoTargets := by
  have hspelling : withTwoTargetsReversed.HasSpelling := by decide
  have hspaces : ∀ c ∈ ['\n', ' '], Json.Token.isSpace c = true := List.all_eq_true.mp rfl
  refine ofText_of_reordered ?_ (by decide) (by decide) ?_ reordered_withTwoTargets ?_
  · have hcsv : (ContentType.other "text/csv").Canonical := ⟨"text/csv", rfl⟩
    have htypes : withTwoTargets.contentTypes = [.json, .other "text/csv"] := rfl
    rw [htypes]
    simp only [List.forall_mem_cons]
    exact ⟨⟨"json", rfl⟩, hcsv, by simp⟩
  · rw [mostOpen_toText]
    decide
  · rw [String.toList_ofList]
    exact Json.Token.spaced_spaceOut hspaces hspelling

end VerifiedLinks.Manifest
