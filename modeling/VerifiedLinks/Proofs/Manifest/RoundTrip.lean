import Mathlib.Data.List.Forall2
import VerifiedLinks.Manifest.Wire
import VerifiedLinks.Proofs.NameMap
import VerifiedLinks.Proofs.Route.Fits

/-!
# Reading a manifest again

A manifest that was read from any text is written to a text that is read as the same
manifest.  It *fits* (`Manifest.Fits`) as its routes do, so what is written of it is not
nested too deeply, all its content types are canonical, and its targets are written in
the order of their names.

Reading looks at the members of an object in the order of the text, and the lemmas on it
are stated for any order: of the targets (`readLinks_eq`) and of `api` and `links`
(`ofDraft_eq`).

The main statement is `Manifest.ofText_toText_of_ofText`.
-/

namespace VerifiedLinks.Manifest

open Json (Value Draft ReadError mismatch orFault)

/-! ## Manifests that fit -/

/-- The targets fit into a room. -/
def TargetsFit (room : Nat) (targets : NameMap Route) : Prop :=
  ∀ e ∈ targets.entries, e.2.Fits room

/-- The manifest is read back as it is, if no more than `room + 1` arrays and objects may
be open at once. -/
structure Fits (room : Nat) (m : Manifest) : Prop where
  api : m.api.Fits room
  /-- The targets stand in an object of their own. -/
  links : TargetsFit (room - 1) m.links

theorem targetsFit_empty (room : Nat) : TargetsFit room .empty := by
  simp [TargetsFit, NameMap.empty]

theorem Fits.depth_toValue_le {room : Nat} {m : Manifest} (h : m.Fits room) :
    m.toValue.depth ≤ room + 1 := by
  have hlinks : (Value.object (m.links.entries.map fun e => (e.1, e.2.toValue))).depth ≤ room := by
    rw [← Nat.sub_add_cancel h.api.room_pos, Value.depth_object_le_iff, List.forall_mem_map]
    exact fun e he => (h.links e he).depth_le
  rw [toValue, Value.depth_object_le_iff]
  simp [h.api.depth_le, hlinks]

/-! ## What is read -/

/-- Targets that can be read are inserted one by one. -/
theorem readTargets_eq {room : Nat} {targets : NameMap Route} {es : List (String × Route)}
    {ms : List (String × Value)}
    (h : List.Forall₂ (fun e m => e.1 = m.1 ∧ Route.ofDraft room m.2.draft = .ok e.2) es ms) :
    readTargets room targets (ms.map Value.memberDraft) = .ok (targets.insertAll es) := by
  induction h generalizing targets with
  | nil => rfl
  | @cons e m es ms hm _ ih =>
      obtain ⟨hname, htarget⟩ := hm
      rw [List.map_cons, Value.memberDraft, readTargets, ← hname, htarget]
      exact ih

theorem readLinks_eq {room : Nat} {es : List (String × Route)} {ms : List (String × Value)}
    (h : List.Forall₂ (fun e m => e.1 = m.1 ∧ Route.ofDraft room m.2.draft = .ok e.2) es ms) :
    readLinks (room + 1) (Value.object ms).draft = .ok (NameMap.empty.insertAll es) := by
  rw [Value.draft_object, readLinks, readTargets_eq h]
  rfl

/-- The two members may come in any order. -/
theorem ofDraft_eq {room : Nat} {v w : Value} {ms : List (String × Value)} {api : Route}
    {links : NameMap Route} (hapi : Route.ofDraft room v.draft = .ok api)
    (hlinks : readLinks room w.draft = .ok links)
    (hms : ms.Perm [("api", v), ("links", w)]) :
    ofDraft room (Value.object ms).draft = .ok { api, links } := by
  obtain ⟨before, behind, rfl⟩ := List.append_of_mem (hms.mem_iff.mpr List.mem_cons_self)
  have hother := (List.perm_cons _).mp (List.perm_middle.symm.trans hms)
  rcases List.append_eq_singleton_iff.mp (List.perm_singleton.mp hother) with
    ⟨rfl, rfl⟩ | ⟨rfl, rfl⟩
  · simp [ofDraft, readMembers, Value.memberDraft, Draft.required, Draft.stopped, orFault, hapi,
      hlinks, bind, Except.bind]
  · simp [ofDraft, readMembers, Value.memberDraft, Draft.required, Draft.stopped, orFault, hapi,
      hlinks, bind, Except.bind]

/-- A manifest that fits is read back. -/
theorem Fits.ofDraft {room : Nat} {m : Manifest} (h : m.Fits room) :
    ofDraft room m.toValue.draft = .ok m := by
  have htargets : List.Forall₂
      (fun e m => e.1 = m.1 ∧ Route.ofDraft (room - 1) m.2.draft = .ok e.2)
      m.links.entries (m.links.entries.map fun e => (e.1, e.2.toValue)) := by
    rw [List.forall₂_map_right_iff, List.forall₂_same]
    exact fun e he => ⟨rfl, (h.links e he).ofDraft⟩
  have hlinks := readLinks_eq htargets
  rw [Nat.sub_add_cancel h.api.room_pos, NameMap.insertAll_eq_of_perm (.refl _)] at hlinks
  exact ofDraft_eq h.api.ofDraft hlinks (.refl _)

/-! ## Manifests that were read -/

/-- Targets that are read fit. -/
theorem fits_readTargets {room : Nat} {targets targets' : NameMap Route}
    {ms : List (Option String × Draft)} (htargets : TargetsFit room targets)
    (h : readTargets room targets ms = .ok targets') : TargetsFit room targets' := by
  induction ms generalizing targets with
  | nil =>
      cases h
      exact htargets
  | cons m ms ih =>
      obtain ⟨name, _, h⟩ := bind_eq_ok.mp h
      obtain ⟨target, htarget, h⟩ := bind_eq_ok.mp h
      refine ih (fun e he => ?_) h
      rcases NameMap.mem_insertEntry he with rfl | he
      · exact Route.fits_ofDraft htarget
      · exact htargets e he

theorem fits_readLinks {room : Nat} {d : Draft} {targets : NameMap Route}
    (h : readLinks room d = .ok targets) : TargetsFit (room - 1) targets := by
  unfold readLinks at h
  split at h
  next ms stop =>
    cases room with
    | zero => cases h
    | succ room =>
        obtain ⟨targets', htargets, h⟩ := bind_eq_ok.mp h
        obtain ⟨_, _, h⟩ := bind_eq_ok.mp h
        cases h
        exact fits_readTargets (targetsFit_empty room) htargets
  · exact absurd h (Draft.refuse_ne_ok _ _ _)

/-- What has been read of the members `api` and `links`. -/
structure MembersFit (room : Nat) (ms : Option Route × Option (NameMap Route)) : Prop where
  api : ∀ api, ms.1 = some api → api.Fits room
  links : ∀ links, ms.2 = some links → TargetsFit (room - 1) links

theorem fits_readMembers {room : Nat} {api : Option Route} {links : Option (NameMap Route)}
    {ms : List (Option String × Draft)} {found : Option Route × Option (NameMap Route)}
    (hfit : MembersFit room (api, links)) (h : readMembers room api links ms = .ok found) :
    MembersFit room found := by
  induction ms generalizing api links with
  | nil =>
      cases h
      exact hfit
  | cons m ms ih =>
      obtain ⟨name, _, h⟩ := bind_eq_ok.mp h
      split at h
      · cases api with
        | some api => cases h
        | none =>
            obtain ⟨api, hapi, h⟩ := bind_eq_ok.mp h
            have hfit' : MembersFit room (some api, links) := by
              refine ⟨?_, hfit.links⟩
              rintro _ ⟨⟩
              exact Route.fits_ofDraft hapi
            exact ih hfit' h
      · split at h
        · cases links with
          | some links => cases h
          | none =>
              obtain ⟨links, hlinks, h⟩ := bind_eq_ok.mp h
              have hfit' : MembersFit room (api, some links) := by
                refine ⟨hfit.api, ?_⟩
                rintro _ ⟨⟩
                exact fits_readLinks hlinks
              exact ih hfit' h
        · obtain ⟨_, _, h⟩ := bind_eq_ok.mp h
          exact ih hfit h

theorem fits_readItems {room : Nat} {stop : Option Json.Break} {ds : List Draft} {m : Manifest}
    (h : readItems room stop ds = .ok m) : m.Fits room := by
  unfold readItems at h
  split at h
  · obtain ⟨_, _, h⟩ := bind_eq_ok.mp h
    cases h
  · obtain ⟨api, hapi, h⟩ := bind_eq_ok.mp h
    obtain ⟨_, _, h⟩ := bind_eq_ok.mp h
    cases h
    exact ⟨Route.fits_ofDraft hapi, targetsFit_empty _⟩
  · obtain ⟨api, hapi, h⟩ := bind_eq_ok.mp h
    obtain ⟨links, hlinks, h⟩ := bind_eq_ok.mp h
    obtain ⟨_, _, h⟩ := bind_eq_ok.mp h
    cases h
    exact ⟨Route.fits_ofDraft hapi, fits_readLinks hlinks⟩
  · obtain ⟨_, _, h⟩ := bind_eq_ok.mp h
    obtain ⟨_, _, h⟩ := bind_eq_ok.mp h
    cases h

/-- A manifest that is read fits, whether it stood in an object or in an array. -/
theorem fits_ofDraft {room : Nat} {d : Draft} {m : Manifest} (h : ofDraft room d = .ok m) :
    m.Fits room := by
  unfold Manifest.ofDraft at h
  split at h
  · obtain ⟨⟨api, links⟩, hmembers, h⟩ := bind_eq_ok.mp h
    obtain ⟨_, _, h⟩ := bind_eq_ok.mp h
    have hfit : MembersFit room (api, links) := fits_readMembers ⟨by simp, by simp⟩ hmembers
    cases api with
    | none => cases h
    | some api =>
        cases h
        refine ⟨hfit.api api rfl, ?_⟩
        cases links with
        | none => exact targetsFit_empty _
        | some links => exact hfit.links links rfl
  · exact fits_readItems h
  · exact absurd h (Draft.refuse_ne_ok _ _ _)

/-! ## Texts -/

theorem hasSpelling_toValue (m : Manifest) : m.toValue.HasSpelling := by
  have hlinks : (Value.object (m.links.entries.map fun e => (e.1, e.2.toValue))).HasSpelling := by
    rw [Value.hasSpelling_object_iff, List.forall_mem_map]
    exact fun e _ => e.2.hasSpelling_toValue
  rw [toValue, Value.hasSpelling_object_iff]
  simp [m.api.hasSpelling_toValue, hlinks]

theorem spaced_toText (m : Manifest) : Json.Token.Spaced m.toValue.tokens m.toText.toList :=
  Value.spaced_write m.hasSpelling_toValue

/-- While the text of a manifest is read, as many objects and arrays are open as its value
is deep. -/
theorem mostOpen_toText (m : Manifest) :
    Json.Token.mostOpen 0 (Json.Token.ofText m.toText) = m.toValue.depth :=
  Json.mostOpen_ofText m.spaced_toText

/-- From the tokens of a value, its draft is read. -/
theorem readUnchecked_of_spaced {v : Value} {s : String}
    (h : Json.Token.Spaced v.tokens s.toList) :
    readUnchecked s = ofDraft (Json.maxDepth - 1) v.draft :=
  Json.readText_of_spaced _ h

/-- Whatever text a manifest was read from, it fits. -/
theorem fits_readUnchecked {s : String} {m : Manifest} (h : readUnchecked s = .ok m) :
    m.Fits (Json.maxDepth - 1) := by
  obtain ⟨m', hm, h⟩ := bind_eq_ok.mp h
  split at h
  · cases h
    exact fits_ofDraft hm
  · cases h

/-- A manifest is read and then validated. -/
theorem ofText_eq_ok_iff {s : String} {m : Manifest} :
    ofText s = .ok m ↔ readUnchecked s = .ok m ∧ m.validate = .ok () := by
  rw [ofText]
  cases readUnchecked s with
  | error e => exact ⟨nofun, fun h => nomatch h.1⟩
  | ok m' =>
      change (do m'.validate; .ok m') = .ok m ↔ _
      rw [bind_eq_ok]
      constructor
      · rintro ⟨⟨⟩, hvalid, h⟩
        cases h
        exact ⟨rfl, hvalid⟩
      · rintro ⟨⟨⟩, hvalid⟩
        exact ⟨(), hvalid, rfl⟩

/-- A manifest is read back exactly if it is valid and its value is read back. -/
theorem ofText_toText_iff {m : Manifest} : ofText m.toText = .ok m ↔
    ofDraft (Json.maxDepth - 1) m.toValue.draft = .ok m ∧ m.validate = .ok () := by
  rw [ofText_eq_ok_iff, readUnchecked_of_spaced m.spaced_toText]

/-- A manifest that was read is written to a text that is not nested too deeply, and from
which the same manifest is read.  So to write it again changes nothing. -/
theorem ofText_toText_of_ofText {s : String} {m : Manifest} (h : ofText s = .ok m) :
    ofText m.toText = .ok m ∧
      Json.Token.mostOpen 0 (Json.Token.ofText m.toText) ≤ Json.maxDepth ∧
      m.validate = .ok () ∧
      (ofText m.toText).map toText = .ok m.toText := by
  obtain ⟨hread, hvalid⟩ := ofText_eq_ok_iff.mp h
  have hfits := fits_readUnchecked hread
  have hagain : ofText m.toText = .ok m := by
    rw [ofText_eq_ok_iff, readUnchecked_of_spaced m.spaced_toText, hfits.ofDraft]
    exact ⟨rfl, hvalid⟩
  refine ⟨hagain, ?_, hvalid, ?_⟩
  · rw [mostOpen_toText]
    exact hfits.depth_toValue_le
  · rw [hagain]
    rfl

/-- A manifest in the form of an array, with the members of a node in an odd order, short
words for content types, a member that is no field, and a name that is given twice. -/
def oddValue : Value :=
  .array [
    .array [.text "alt",
      .object [("response", .text "T"), ("method", .text "GET"), ("note", .null),
        ("kind", .text "verb"), ("content_types", .array [.text " Text "])],
      .array [.text "verb", .text "DELETE"]],
    .object [
      ("x", .array [.text "verb", .text "DELETE"]),
      ("x", .array [.text "verb", .object [("GET", .null)], .array [.text "json"], .text "T"])]]

/-- The manifest that is read from the odd value. -/
def ofOddValue : Manifest where
  api := .alt (.verb { method := .get, contentTypes := [.plainText], response := some "T" })
    (.verb .delete)
  links := NameMap.empty.insert "x"
    (.verb { method := .get, contentTypes := [.json], response := some "T" })

/-- A manifest in an array, with a name that is given twice. -/
theorem ofText_toText_oddValue :
    ofText oddValue.write = .ok ofOddValue ∧ ofText ofOddValue.toText = .ok ofOddValue ∧
      (ofText ofOddValue.toText).map toText = .ok ofOddValue.toText := by
  have hspelling : oddValue.HasSpelling := by decide
  have hread : ofText oddValue.write = .ok ofOddValue := by
    rw [ofText_eq_ok_iff, readUnchecked_of_spaced (Value.spaced_write hspelling)]
    exact ⟨rfl, rfl⟩
  obtain ⟨hagain, _, _, hsame⟩ := ofText_toText_of_ofText hread
  exact ⟨hread, hagain, hsame⟩

end VerifiedLinks.Manifest
