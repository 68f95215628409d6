import VerifiedLinks.Proofs.Json.Reordering
import VerifiedLinks.Proofs.Route.Fits

/-!
# Routes in another order

A route is read from its value with the members of all objects in any order.  The kind may
come last, and then the reader has to keep the other members until it is found.

The kind picks out its fields by their names, so a node is read in any order if it is read
in the order in which it is written (`ofValue_eq_of_members`).  In that order only the
values of the children may have changed, and they are read by induction
(`ofMembers_of_reordered`).

The outermost node is read by another path than the nodes below it, but its members are
looked at in the same way (`Fits.ofDraft_of_reordered`).
-/

namespace VerifiedLinks

open Json (Value Draft ReadError)

/-! ## What cannot be reordered -/

theorem ContentType.rigid_listValue (cts : List ContentType) : (listValue cts).Rigid :=
  Value.rigid_array (List.forall_mem_map.mpr fun ct _ => Value.rigid_text ct.mediaType)

theorem Step.rigid_members (s : Step) : ∀ m ∈ s.members, m.2.Rigid :=
  s.forall_mem_members Value.rigid_text ContentType.rigid_listValue

theorem Verb.rigid_members (v : Verb) : ∀ m ∈ v.members, m.2.Rigid :=
  v.forall_mem_members Value.rigid_text ContentType.rigid_listValue

namespace Route

/-! ## Members -/

/-- The reordered value of a route has the members of the route, with their values
reordered, in some order. -/
theorem members_of_reordered {r : Route} {v : Value} (h : r.toValue.Reordered v) :
    ∃ ms' ms, v = .object ms ∧ List.Forall₂ Value.MemberReordered r.members ms' ∧
      ((("kind", .text r.kind.name) :: ms').Perm ms) := by
  rw [toValue_eq] at h
  obtain ⟨ms₁, ms₂, rfl, hms, hperm⟩ := h.of_object
  obtain ⟨w, ms', rfl, hkind, hms⟩ := Value.members_cons_cases hms
  rw [hkind.eq_of_rigid (Value.rigid_text _)] at hperm
  exact ⟨ms', ms₂, rfl, hms, hperm⟩

/-- No other member of a route is called `kind`, however they are reordered inside. -/
theorem kind_not_mem_of_reordered {r : Route} {ms : List (String × Value)}
    (h : List.Forall₂ Value.MemberReordered r.members ms) : ∀ m ∈ ms, m.1 ≠ "kind" := by
  intro m hm
  have hname : m.1 ∈ ms.map Prod.fst := List.mem_map_of_mem hm
  rw [Value.names_of_forall₂_reordered h] at hname
  obtain ⟨m', hm', heq⟩ := List.mem_map.mp hname
  exact heq ▸ r.kind_not_mem_members m' hm'

/-- It is enough to read the members behind the kind in the order in which they are
written. -/
theorem ofValue_eq_of_members {r : Route} {v : Value}
    (hmembers : ∀ {ms'}, List.Forall₂ Value.MemberReordered r.members ms' →
      r.kind.ofMembers (ms'.map memberPart) = .ok r)
    (h : r.toValue.Reordered v) : ofValue v = .ok r := by
  obtain ⟨ms', ms, rfl, hms, hperm⟩ := members_of_reordered h
  have hread : ofValue (.object (("kind", .text r.kind.name) :: ms')) = .ok r := by
    rw [ofValue_object (kind_not_mem_of_reordered hms), hmembers hms]
  rw [ofValue, memberParts_eq_map] at hread ⊢
  exact Part.ofMembers_perm (hperm.map _) hread

/-- A route is made of its members, reordered inside. -/
theorem ofMembers_of_reordered {r : Route} (hcts : ∀ ct ∈ r.contentTypes, ct.Canonical)
    {ms : List (String × Value)} (hms : List.Forall₂ Value.MemberReordered r.members ms) :
    r.kind.ofMembers (ms.map memberPart) = .ok r := by
  induction r generalizing ms with
  | alt left right ihl ihr =>
      obtain ⟨hl, hr⟩ := List.forall_mem_append.mp hcts
      obtain ⟨u, _, rfl, hu, hms⟩ := Value.members_cons_cases hms
      obtain ⟨w, _, rfl, hw, ⟨⟩⟩ := Value.members_cons_cases hms
      have hleft : ofValue u = .ok left := ofValue_eq_of_members (ihl hl) hu
      have hright : ofValue w = .ok right := ofValue_eq_of_members (ihr hr) hw
      change Kind.alt.ofMembers [("left", part u), ("right", part w)] = _
      rw [ofMembers_alt]
      simp only [part, hleft, hright]
      rfl
  | step s rest ih =>
      obtain ⟨hs, hrest⟩ := List.forall_mem_append.mp hcts
      obtain ⟨ms₁, ms₂, rfl, hms₁, hms₂⟩ := Json.forall₂_append_left hms
      obtain ⟨u, _, rfl, hu, ⟨⟩⟩ := Value.members_cons_cases hms₂
      have hchild : ofValue u = .ok rest := ofValue_eq_of_members (ih hrest) hu
      rw [Value.eq_of_forall₂_rigid hms₁ s.rigid_members, List.map_append]
      refine ofMembers_step_eq_ok_iff.mpr ⟨fun ct hct => (hs ct hct).readable, rest, hchild, ?_⟩
      rw [Step.mapContentTypes_eq_self fun ct hct => (hs ct hct).reread_eq]
  | verb v =>
      have hread : readContentTypes (ContentType.listValue v.contentTypes) = .ok v.contentTypes :=
        readContentTypes_listValue.mpr ⟨fun ct hct => (hcts ct hct).readable,
          (map_eq_self_of_mem fun ct hct => (hcts ct hct).reread_eq).symm⟩
      rw [Value.eq_of_forall₂_rigid hms v.rigid_members]
      change Kind.verb.ofMembers (v.members.map memberPart) = _
      rw [ofMembers_verb, hread]
      rfl

/-- A route that fits is read from its value with the members in any order. -/
theorem Fits.ofDraft_of_reordered {room : Nat} {r : Route} {v : Value} (h : r.Fits room)
    (hv : r.toValue.Reordered v) : Route.ofDraft room v.draft = .ok r := by
  have hdepth : v.depth ≤ room := hv.depth_eq ▸ h.depth_le
  obtain ⟨ms', ms, rfl, hms, hperm⟩ := members_of_reordered hv
  have hdepth' : (Value.object ms').depth ≤ room := by
    rw [← Nat.sub_add_cancel h.room_pos, Value.depth_object_le_iff] at hdepth ⊢
    exact fun m hm => hdepth m (hperm.mem_iff.mp (List.mem_cons_of_mem _ hm))
  have hread : Route.ofDraft room (Value.object (("kind", .text r.kind.name) :: ms')).draft =
      .ok r := by
    rw [ofDraft_object (kind_not_mem_of_reordered hms) hdepth',
      ofMembers_of_reordered h.canonical hms]
  rw [Value.draft_object] at hread ⊢
  exact ofDraft_perm (hperm.map _) hread

end Route

end VerifiedLinks
