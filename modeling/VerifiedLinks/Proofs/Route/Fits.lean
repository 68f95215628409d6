import VerifiedLinks.Proofs.Route.RoundTrip

/-!
# Routes that were read

A route *fits* into a room if it is read back as it is where no more arrays and objects
than that may be open (`Route.Fits`).  Its content types are canonical, and what is
written of it is not too deep (`Route.Fits.ofDraft`).

A route that was read fits into the room in which it was read, however its text was
spelled: short words for content types, arrays for nodes, members that are no fields.
The reader goes from fields to nodes to routes, and so do the lemmas here: what is read
of a part fits (`Field.fits_content`), then all fields of a node (`Fields.fits_ofMembers`,
`Fields.fits_ofItems`), then the node that they make (`Fields.Fits.build`).

The main statements are `Route.fits_ofValue` and `Route.fits_ofDraft`.
-/

namespace VerifiedLinks

open Json (Value Draft ReadError mismatch orFault)

/-! ## Depth of what is written -/

theorem ContentType.depth_listValue (cts : List ContentType) : (listValue cts).depth = 1 := by
  have h : Value.itemsDepth (cts.map fun ct => .text ct.mediaType) ≤ 0 := by
    rw [Value.itemsDepth_le_iff, List.forall_mem_map]
    exact fun ct _ => Nat.le_refl 0
  rw [listValue, Value.depth, Nat.le_zero.mp h]

theorem Step.depth_members_le (s : Step) : ∀ m ∈ s.members, m.2.depth ≤ 1 :=
  s.forall_mem_members (P := fun v => v.depth ≤ 1) (fun _ => Nat.zero_le 1)
    fun cts => Nat.le_of_eq (ContentType.depth_listValue cts)

theorem Verb.depth_members_le_iff {v : Verb} {n : Nat} :
    (∀ m ∈ v.members, m.2.depth ≤ n) ↔ v.contentTypes = [] ∨ 1 ≤ n := by
  obtain ⟨method, cts, _ | type⟩ := v <;> by_cases h : cts = [] <;>
    simp [members, h, ContentType.depth_listValue, Value.depth]

namespace Route

theorem depth_toValue_pos (r : Route) : 1 ≤ r.toValue.depth := by
  rw [toValue_eq, Value.depth]
  omega

/-- An alternative is one deeper than the deeper of its sides. -/
theorem depth_toValue_alt_le_iff {left right : Route} {n : Nat} :
    (alt left right).toValue.depth ≤ n + 1 ↔
      left.toValue.depth ≤ n ∧ right.toValue.depth ≤ n := by
  rw [toValue, Value.depth_object_le_iff]
  simp [Value.depth]

/-- The child of a step is an object, so there is room for the list of a body beside it. -/
theorem depth_toValue_step_le_iff {s : Step} {rest : Route} {n : Nat} :
    (step s rest).toValue.depth ≤ n + 1 ↔ rest.toValue.depth ≤ n := by
  rw [toValue_eq, Value.depth_object_le_iff, List.forall_mem_cons, members, List.forall_mem_append,
    List.forall_mem_singleton]
  refine ⟨fun h => h.2.2, fun h => ⟨Nat.zero_le n, fun m hm => ?_, h⟩⟩
  exact Nat.le_trans (s.depth_members_le m hm) (Nat.le_trans rest.depth_toValue_pos h)

/-- A verb is one deeper than its list of content types, if there is one. -/
theorem depth_toValue_verb_le_iff {v : Verb} {n : Nat} :
    (verb v).toValue.depth ≤ n + 1 ↔ v.contentTypes = [] ∨ 1 ≤ n := by
  rw [toValue_eq, Value.depth_object_le_iff, List.forall_mem_cons, members,
    Verb.depth_members_le_iff]
  simp [Value.depth]

/-! ## Routes that fit -/

/-- The route is read back as it is, if no more than `room` arrays and objects may be open
at once. -/
structure Fits (room : Nat) (r : Route) : Prop where
  /-- The media types of the content types spell them. -/
  canonical : ∀ ct ∈ r.contentTypes, ct.Canonical
  /-- What is written of the route is not too deep. -/
  depth_le : r.toValue.depth ≤ room

/-- With more room, everything still fits. -/
theorem Fits.mono {room room' : Nat} {r : Route} (h : r.Fits room) (hroom : room ≤ room') :
    r.Fits room' :=
  ⟨h.canonical, Nat.le_trans h.depth_le hroom⟩

theorem Fits.room_pos {room : Nat} {r : Route} (h : r.Fits room) : 1 ≤ room :=
  Nat.le_trans r.depth_toValue_pos h.depth_le

/-- A route that fits is read back. -/
theorem Fits.ofDraft {room : Nat} {r : Route} (h : r.Fits room) :
    ofDraft room r.toValue.draft = .ok r := by
  rw [ofDraft_toValue h.depth_le, ofValue_toValue_of_canonical h.canonical]

/-- An alternative fits if both sides fit into the room inside. -/
theorem fits_alt_iff {left right : Route} {n : Nat} :
    (alt left right).Fits (n + 1) ↔ left.Fits n ∧ right.Fits n := by
  constructor
  · rintro ⟨hcts, hdepth⟩
    obtain ⟨hl, hr⟩ := List.forall_mem_append.mp hcts
    obtain ⟨hdl, hdr⟩ := depth_toValue_alt_le_iff.mp hdepth
    exact ⟨⟨hl, hdl⟩, ⟨hr, hdr⟩⟩
  · rintro ⟨⟨hl, hdl⟩, ⟨hr, hdr⟩⟩
    exact ⟨List.forall_mem_append.mpr ⟨hl, hr⟩, depth_toValue_alt_le_iff.mpr ⟨hdl, hdr⟩⟩

/-- A step fits if what stands behind it fits into the room inside. -/
theorem fits_step_iff {s : Step} {rest : Route} {n : Nat} :
    (step s rest).Fits (n + 1) ↔ (∀ ct ∈ s.contentTypes, ct.Canonical) ∧ rest.Fits n := by
  constructor
  · rintro ⟨hcts, hdepth⟩
    obtain ⟨hs, hrest⟩ := List.forall_mem_append.mp hcts
    exact ⟨hs, hrest, depth_toValue_step_le_iff.mp hdepth⟩
  · rintro ⟨hs, hrest, hdepth⟩
    exact ⟨List.forall_mem_append.mpr ⟨hs, hrest⟩, depth_toValue_step_le_iff.mpr hdepth⟩

end Route

/-! ## Fields -/

namespace Field

/-- What a field holds fits into a node with room for `n` more arrays and objects. -/
def Fits (n : Nat) : (f : Field) → f.Content → Prop
  | contentTypes, cts => (∀ ct ∈ cts, ct.Canonical) ∧ (cts = [] ∨ 1 ≤ n)
  | left, r => r.Fits n
  | right, r => r.Fits n
  | rest, r => r.Fits n
  | literal, _ | name, _ | type, _ | method, _ | response, _ => True

end Field

/-- The part is a value that is not too deep, and its reading fits. -/
structure Part.Fits (n : Nat) (p : Part) : Prop where
  depth_le : p.value.depth ≤ n
  route : ∀ r, p.route = .ok r → r.Fits n

theorem canonical_of_readContentType {v : Value} {ct : ContentType}
    (h : readContentType v = .ok ct) : ct.Canonical := by
  obtain ⟨s, _, h⟩ := bind_eq_ok.mp h
  cases hparse : ContentType.parse s with
  | ok ct' =>
      rw [hparse] at h
      cases h
      exact ⟨s, hparse⟩
  | error e =>
      rw [hparse] at h
      cases h

/-- A list of content types comes from an array, for which there was room. -/
theorem fits_readContentTypes {v : Value} {cts : List ContentType} {n : Nat}
    (h : readContentTypes v = .ok cts) (hv : v.depth ≤ n) :
    Field.contentTypes.Fits n cts := by
  cases v with
  | array items =>
      refine ⟨fun ct hct => ?_, .inr (Nat.le_trans (Nat.le_add_left 1 _) hv)⟩
      obtain ⟨v, _, hv⟩ := exists_of_mem_mapM h ct hct
      exact canonical_of_readContentType hv
  | null => cases h
  | bool b => cases h
  | number x => cases h
  | text s => cases h
  | object members => cases h

/-- The content that is read of a part that fits does fit. -/
theorem Field.fits_content {f : Field} {p : Part} {x : f.Content} {n : Nat} (hp : p.Fits n)
    (h : f.content p = .ok x) : f.Fits n x := by
  cases f with
  | contentTypes => exact fits_readContentTypes h hp.depth_le
  | left => exact hp.route x h
  | right => exact hp.route x h
  | rest => exact hp.route x h
  | literal => trivial
  | name => trivial
  | type => trivial
  | method => trivial
  | response => trivial

namespace Fields

/-- All fields that have been read fit. -/
def Fits (n : Nat) (fs : Fields) : Prop :=
  ∀ (f : Field) (x : f.Content), fs.get f = some x → f.Fits n x

theorem fits_empty (n : Nat) : ({} : Fields).Fits n := by
  intro f x h
  rw [get_empty] at h
  cases h

section

variable {n : Nat} {k : Kind} {fs fs' : Fields}

/-- A field that is read from a part that fits leaves the fields fitting. -/
theorem Fits.read {f : Field} {p : Part} (hfs : fs.Fits n) (hp : p.Fits n)
    (h : fs.read f p = .ok fs') : fs'.Fits n := by
  obtain ⟨_, x, hx, rfl⟩ := read_eq_ok_iff.mp h
  intro g y hy
  by_cases hfg : f = g
  · subst hfg
    rw [get_set_self] at hy
    cases hy
    exact Field.fits_content hp hx
  · rw [get_set_of_ne fs hfg] at hy
    exact hfs g y hy

theorem Fits.readMember {m : String × Part} (hfs : fs.Fits n) (hm : m.2.Fits n)
    (h : readMember k fs m = .ok fs') : fs'.Fits n := by
  unfold Fields.readMember at h
  split at h
  · exact hfs.read hm h
  · cases h
    exact hfs

theorem Fits.ofMembers {ms : List (String × Part)} (hfs : fs.Fits n) (hms : ∀ m ∈ ms, m.2.Fits n)
    (h : ofMembers k fs ms = .ok fs') : fs'.Fits n := by
  induction ms generalizing fs with
  | nil =>
      cases h
      exact hfs
  | cons m ms ih =>
      obtain ⟨hm, hms⟩ := List.forall_mem_cons.mp hms
      rw [ofMembers_cons] at h
      obtain ⟨fs₁, hfs₁, h⟩ := bind_eq_ok.mp h
      exact ih (hfs.readMember hm hfs₁) hms h

theorem Fits.ofItems {index : Nat} {fields : List Field} {ps : List Part} (hfs : fs.Fits n)
    (hps : ∀ p ∈ ps, p.Fits n) (h : ofItems k fs index fields ps = .ok fs') : fs'.Fits n := by
  induction fields generalizing fs index ps with
  | nil =>
      cases ps with
      | nil =>
          cases h
          exact hfs
      | cons p ps => cases h
  | cons f fields ih =>
      cases ps with
      | nil =>
          rw [Fields.ofItems] at h
          split at h
          · exact ih hfs hps h
          · cases h
      | cons p ps =>
          obtain ⟨hp, hps⟩ := List.forall_mem_cons.mp hps
          obtain ⟨fs₁, hfs₁, h⟩ := bind_eq_ok.mp h
          exact ih (hfs.read hp hfs₁) hps h

theorem need_eq_ok_iff {α : Type} {f : Field} {o : Option α} {a : α} :
    need f o = .ok a ↔ o = some a := by
  cases o with
  | none => simp [need, mismatch]
  | some b => simp [need]

/-- A node whose fields fit fits with one more object open. -/
theorem Fits.build {r : Route} (hfs : fs.Fits n) (h : fs.build k = .ok r) : r.Fits (n + 1) := by
  have hchild {f : Field} {x : f.Content} (hx : need f (fs.get f) = .ok x) : f.Fits n x :=
    hfs f x (need_eq_ok_iff.mp hx)
  have htypeless {s : Step} {rest : Route} (hs : s.contentTypes = [])
      (hrest : need .rest fs.rest = .ok rest) : (Route.step s rest).Fits (n + 1) := by
    rw [Route.fits_step_iff, hs]
    exact ⟨by simp, hchild hrest⟩
  cases k with
  | alt =>
      obtain ⟨left, hleft, h⟩ := bind_eq_ok.mp h
      obtain ⟨right, hright, h⟩ := bind_eq_ok.mp h
      cases h
      exact Route.fits_alt_iff.mpr ⟨hchild hleft, hchild hright⟩
  | segment =>
      obtain ⟨literal, _, h⟩ := bind_eq_ok.mp h
      obtain ⟨rest, hrest, h⟩ := bind_eq_ok.mp h
      cases h
      exact htypeless rfl hrest
  | capture =>
      obtain ⟨name, _, h⟩ := bind_eq_ok.mp h
      obtain ⟨type, _, h⟩ := bind_eq_ok.mp h
      obtain ⟨rest, hrest, h⟩ := bind_eq_ok.mp h
      cases h
      exact htypeless rfl hrest
  | body =>
      obtain ⟨cts, hcts, h⟩ := bind_eq_ok.mp h
      obtain ⟨type, _, h⟩ := bind_eq_ok.mp h
      obtain ⟨rest, hrest, h⟩ := bind_eq_ok.mp h
      cases h
      exact Route.fits_step_iff.mpr ⟨(hchild (f := .contentTypes) hcts).1, hchild hrest⟩
  | param place repeated =>
      obtain ⟨name, _, h⟩ := bind_eq_ok.mp h
      obtain ⟨type, _, h⟩ := bind_eq_ok.mp h
      obtain ⟨rest, hrest, h⟩ := bind_eq_ok.mp h
      cases h
      exact htypeless rfl hrest
  | flag place =>
      obtain ⟨name, _, h⟩ := bind_eq_ok.mp h
      obtain ⟨rest, hrest, h⟩ := bind_eq_ok.mp h
      cases h
      exact htypeless rfl hrest
  | verb =>
      obtain ⟨method, _, h⟩ := bind_eq_ok.mp h
      cases h
      cases hcts : fs.contentTypes with
      | none => exact ⟨by simp [Route.contentTypes], Route.depth_toValue_verb_le_iff.mpr (.inl rfl)⟩
      | some cts =>
          obtain ⟨hcanonical, hroom⟩ := hfs .contentTypes cts hcts
          exact ⟨hcanonical, Route.depth_toValue_verb_le_iff.mpr hroom⟩

end

end Fields

/-! ## Nodes -/

section

variable {n : Nat} {r : Route}

/-- A route that is made of members that fit does fit, with one bracket around it. -/
theorem Kind.fits_ofMembers {k : Kind} {ms : List (String × Part)} (hms : ∀ m ∈ ms, m.2.Fits n)
    (h : k.ofMembers ms = .ok r) : r.Fits (n + 1) := by
  obtain ⟨fs, hfs, h⟩ := bind_eq_ok.mp h
  exact ((Fields.fits_empty n).ofMembers hms hfs).build h

theorem Kind.fits_ofItems {k : Kind} {ps : List Part} (hps : ∀ p ∈ ps, p.Fits n)
    (h : k.ofItems ps = .ok r) : r.Fits (n + 1) := by
  obtain ⟨fs, hfs, h⟩ := bind_eq_ok.mp h
  exact ((Fields.fits_empty n).ofItems hps hfs).build h

/-- The parts that are left beside the kind are parts that have been read. -/
theorem fits_splitKind {α : Type} {readKind : α → Except ReadError Kind}
    {readPart : α → Except ReadError Part} {kind k : Option Kind}
    {ms : List (Option String × α)} {ps : List (String × Part)}
    (hms : ∀ m ∈ ms, ∀ p, readPart m.2 = .ok p → p.Fits n)
    (h : splitKind readKind readPart kind ms = .ok (k, ps)) : ∀ m ∈ ps, m.2.Fits n := by
  induction ms generalizing kind ps with
  | nil =>
      cases h
      simp
  | cons m ms ih =>
      obtain ⟨hm, hms⟩ := List.forall_mem_cons.mp hms
      obtain ⟨name, _, ⟨_, _, k', _, hrest⟩ | ⟨_, p, ps', hp, hrest, rfl⟩⟩ :=
        splitKind_cons_eq_ok_iff.mp h
      · exact ih hms hrest
      · exact List.forall_mem_cons.mpr ⟨hm p hp, ih hms hrest⟩

theorem Part.fits_ofMembers {ms : List (String × Part)} (hms : ∀ m ∈ ms, m.2.Fits n)
    (h : Part.ofMembers ms = .ok r) : r.Fits (n + 1) := by
  obtain ⟨⟨kind, ps⟩, hsplit, h⟩ := bind_eq_ok.mp h
  obtain ⟨k, _, h⟩ := bind_eq_ok.mp h
  refine k.fits_ofMembers (fits_splitKind ?_ hsplit) h
  rw [List.forall_mem_map]
  rintro m hm p hp
  cases hp
  exact hms m hm

theorem Part.fits_ofItems {ps : List Part} (hps : ∀ p ∈ ps, p.Fits n)
    (h : Part.ofItems ps = .ok r) : r.Fits (n + 1) := by
  cases ps with
  | nil => cases h
  | cons p ps =>
      obtain ⟨k, _, h⟩ := bind_eq_ok.mp h
      exact k.fits_ofItems (List.forall_mem_cons.mp hps).2 h

end

/-! ## Routes -/

namespace Route

/-- A route below the outermost node needs no more room than the value it was read from. -/
theorem fits_ofValue {v : Value} {r : Route} (h : ofValue v = .ok r) : r.Fits v.depth := by
  -- Any route read below fits into the depth of its own value, so also into what is left.
  have hpart {u : Value} {n : Nat} (ih : ∀ {r}, ofValue u = .ok r → r.Fits u.depth)
      (hu : u.depth ≤ n) : (part u).Fits n := ⟨hu, fun r hr => (ih hr).mono hu⟩
  induction v generalizing r with
  | object members ih =>
      rw [ofValue, memberParts_eq_map] at h
      refine Part.fits_ofMembers (List.forall_mem_map.mpr fun m hm => ?_) h
      exact hpart (ih m hm) (Value.membersDepth_le_iff.mp (Nat.le_refl _) m hm)
  | array items ih =>
      rw [ofValue, itemParts_eq_map] at h
      refine Part.fits_ofItems (List.forall_mem_map.mpr fun v hv => ?_) h
      exact hpart (ih v hv) (Value.itemsDepth_le_iff.mp (Nat.le_refl _) v hv)
  | null => cases h
  | bool b => cases h
  | number n => cases h
  | text s => cases h

/-- What is read with some room fits into it. -/
theorem fits_readPart {room : Nat} {d : Draft} {p : Part} (h : readPart room d = .ok p) :
    p.Fits room := by
  obtain ⟨v, hv, h⟩ := bind_eq_ok.mp h
  cases h
  have hdepth : v.depth ≤ room := Draft.depth_le_of_value (Json.orFault_eq_ok_iff.mp hv)
  exact ⟨hdepth, fun r hr => (fits_ofValue hr).mono hdepth⟩

/-- The outermost node fits into the room in which it was read. -/
theorem fits_ofDraft {room : Nat} {d : Draft} {r : Route} (h : ofDraft room d = .ok r) :
    r.Fits room := by
  unfold ofDraft at h
  split at h
  · cases h
  · cases h
  next room ms stop =>
    obtain ⟨⟨kind, ps⟩, hsplit, h⟩ := bind_eq_ok.mp h
    obtain ⟨_, _, h⟩ := bind_eq_ok.mp h
    obtain ⟨k, _, h⟩ := bind_eq_ok.mp h
    exact k.fits_ofMembers (fits_splitKind (fun m _ p hp => fits_readPart hp) hsplit) h
  next room ds stop =>
    cases ds with
    | nil =>
        obtain ⟨_, _, h⟩ := bind_eq_ok.mp h
        cases h
    | cons d ds =>
        obtain ⟨k, _, h⟩ := bind_eq_ok.mp h
        obtain ⟨ps, hps, h⟩ := bind_eq_ok.mp h
        obtain ⟨_, _, h⟩ := bind_eq_ok.mp h
        refine k.fits_ofItems (fun p hp => ?_) h
        obtain ⟨d', _, hd⟩ := exists_of_mem_mapM hps p hp
        exact fits_readPart hd
  · exact absurd h (d.refuse_ne_ok routeExpected r)

end Route

end VerifiedLinks
