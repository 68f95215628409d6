import VerifiedLinks.Proofs.ContentType.Canonical
import VerifiedLinks.Proofs.Json.Nesting
import VerifiedLinks.Proofs.Route.Fields
import VerifiedLinks.Route.Writer

/-!
# Reading what was written

A route that was written is read back as it was, but for its content types.  Of these
only the media types are written, and each of them is read again.  So a route that holds
a content type whose media type spells none cannot be read back
(`Route.ofValue_toValue_iff`).

The members are written in a certain order, kind first, and here the reader is followed
through that order.  There is one lemma for the kind (`Route.ofValue_object`, and
`Route.ofDraft_object` for the outermost node) and one for the fields of each shape of
node (`ofMembers_alt`, `ofMembers_step_eq_ok_iff`, `ofMembers_verb`).

The main statement is `Route.ofText_toText`.
-/

namespace VerifiedLinks

open Json (Value Draft ReadError mismatch orFault)

/-! ## Content types -/

namespace ContentType

/-- The media type of the content type spells a content type. -/
def Readable (ct : ContentType) : Prop := ∃ ct', parse ct.mediaType = .ok ct'

/-- The content type that the media type of a readable one spells. -/
def reread (ct : ContentType) : ContentType :=
  match parse ct.mediaType with
  | .ok ct' => ct'
  | .error _ => ct

theorem Readable.parse_eq {ct : ContentType} (h : ct.Readable) :
    parse ct.mediaType = .ok ct.reread := by
  obtain ⟨ct', h⟩ := h
  rw [reread, h]

theorem reread_eq {ct ct' : ContentType} (h : parse ct.mediaType = .ok ct') : ct.reread = ct' := by
  rw [reread, h]

theorem Canonical.readable {ct : ContentType} (h : ct.Canonical) : ct.Readable :=
  ⟨ct, canonical_iff.mp h⟩

/-- A canonical content type is read back to itself. -/
theorem Canonical.reread_eq {ct : ContentType} (h : ct.Canonical) : ct.reread = ct :=
  ContentType.reread_eq (canonical_iff.mp h)

end ContentType

/-- The content types of a modifier. -/
def Modifier.contentTypes : Modifier → List ContentType
  | body cts _ => cts
  | _ => []

/-- The content types of a step. -/
def Step.contentTypes : Step → List ContentType
  | modifier m => m.contentTypes
  | _ => []

/-- The content types of all nodes of a route. -/
def Route.contentTypes : Route → List ContentType
  | alt left right => left.contentTypes ++ right.contentTypes
  | step s rest => s.contentTypes ++ rest.contentTypes
  | verb v => v.contentTypes

section

variable (f : ContentType → ContentType)

/-- The modifier with its content types replaced. -/
def Modifier.mapContentTypes : Modifier → Modifier
  | body cts type => body (cts.map f) type
  | m => m

/-- The step with its content types replaced. -/
def Step.mapContentTypes : Step → Step
  | modifier m => modifier (m.mapContentTypes f)
  | s => s

/-- The verb with its content types replaced. -/
def Verb.mapContentTypes (v : Verb) : Verb := { v with contentTypes := v.contentTypes.map f }

/-- The route with the content types of all nodes replaced. -/
def Route.mapContentTypes : Route → Route
  | alt left right => alt left.mapContentTypes right.mapContentTypes
  | step s rest => step (s.mapContentTypes f) rest.mapContentTypes
  | verb v => verb (v.mapContentTypes f)

end

theorem map_eq_self_of_mem {f : ContentType → ContentType} {cts : List ContentType}
    (h : ∀ ct ∈ cts, f ct = ct) : cts.map f = cts :=
  (List.map_congr_left h).trans (List.map_id cts)

/-- A body is the only step that has content types. -/
theorem Step.body_or_no_contentTypes (s : Step) :
    (∃ cts type, s = modifier (.body cts type)) ∨
      s.kind ≠ .body ∧ s.contentTypes = [] ∧ ∀ f, s.mapContentTypes f = s := by
  cases s with
  | segment literal => exact .inr ⟨Kind.noConfusion, rfl, fun _ => rfl⟩
  | capture name type => exact .inr ⟨Kind.noConfusion, rfl, fun _ => rfl⟩
  | modifier m =>
      cases m with
      | body cts type => exact .inl ⟨cts, type, rfl⟩
      | param place repeated name type => exact .inr ⟨Kind.noConfusion, rfl, fun _ => rfl⟩
      | flag place name => exact .inr ⟨Kind.noConfusion, rfl, fun _ => rfl⟩

theorem Step.mapContentTypes_eq_self {f : ContentType → ContentType} {s : Step}
    (h : ∀ ct ∈ s.contentTypes, f ct = ct) : s.mapContentTypes f = s := by
  rcases s.body_or_no_contentTypes with ⟨cts, type, rfl⟩ | ⟨_, _, hmap⟩
  · have hcts : cts.map f = cts := map_eq_self_of_mem h
    rw [mapContentTypes, Modifier.mapContentTypes, hcts]
  · exact hmap f

/-- A route is left as it is if its content types are. -/
theorem Route.mapContentTypes_eq_self {f : ContentType → ContentType} {r : Route}
    (h : ∀ ct ∈ r.contentTypes, f ct = ct) : r.mapContentTypes f = r := by
  induction r with
  | alt left right ihl ihr =>
      obtain ⟨hl, hr⟩ := List.forall_mem_append.mp h
      rw [mapContentTypes, ihl hl, ihr hr]
  | step s rest ih =>
      obtain ⟨hs, hrest⟩ := List.forall_mem_append.mp h
      rw [mapContentTypes, Step.mapContentTypes_eq_self hs, ih hrest]
  | verb v =>
      have hcts : v.contentTypes.map f = v.contentTypes := map_eq_self_of_mem h
      rw [mapContentTypes, Verb.mapContentTypes, hcts]

/-! ## Fields -/

theorem readContentType_mediaType {ct ct' : ContentType} :
    readContentType (.text ct.mediaType) = .ok ct' ↔
      ContentType.parse ct.mediaType = .ok ct' := by
  simp only [readContentType, readString, bind_eq_ok, Except.ok.injEq, exists_eq_left']
  cases ContentType.parse ct.mediaType with
  | ok ct₁ => simp only [Except.ok.injEq]
  | error e => simp [mismatch]

/-- A list of content types is read back exactly if each of them can be. -/
theorem readContentTypes_listValue {cts cts' : List ContentType} :
    readContentTypes (ContentType.listValue cts) = .ok cts' ↔
      (∀ ct ∈ cts, ct.Readable) ∧ cts' = cts.map ContentType.reread := by
  have hall (h : ∀ ct ∈ cts, ct.Readable) :
      readContentTypes (ContentType.listValue cts) = .ok (cts.map ContentType.reread) :=
    mapM_map_eq_ok fun ct hct => readContentType_mediaType.mpr (h ct hct).parse_eq
  constructor
  · intro h
    have hreadable : ∀ ct ∈ cts, ct.Readable := by
      intro ct hct
      obtain ⟨ct', hct'⟩ := exists_result_of_mapM h _ (List.mem_map_of_mem hct)
      exact ⟨ct', readContentType_mediaType.mp hct'⟩
    exact ⟨hreadable, Except.ok.inj (h.symm.trans (hall hreadable))⟩
  · rintro ⟨h, rfl⟩
    exact hall h

theorem readKindName_name (k : Kind) : readKindName k.name = .ok k := by
  rw [readKindName, Kind.ofName?_name]

/-! ## Nodes -/

/-- A member with the reading of its value. -/
def memberPart (m : String × Value) : String × Part := (m.1, Route.part m.2)

theorem ofMembers_alt (p q : Part) :
    Kind.alt.ofMembers [("left", p), ("right", q)] =
      (do let left ← p.route; let right ← q.route; .ok (.alt left right)) := by
  simp only [Kind.ofMembers, Fields.ofMembers, Kind.fields, Field.key, List.find?, String.reduceBEq,
    Fields.read, fill]
  cases p.route with
  | error e => rfl
  | ok left => cases q.route <;> rfl

theorem ofMembers_body (cts : Value) (type : String) (p : Part) :
    Kind.body.ofMembers [memberPart ("content_types", cts), memberPart ("type", .text type),
        ("rest", p)] =
      (do
        let cts ← readContentTypes cts
        let rest ← p.route
        .ok (.step (.modifier (.body cts type)) rest)) := by
  simp only [Kind.ofMembers, Fields.ofMembers, Kind.fields, Field.key, List.find?, String.reduceBEq,
    Fields.read, fill, memberPart, Route.part]
  cases readContentTypes cts with
  | error e => rfl
  | ok cts => cases p.route <;> rfl

/-- All other steps are made of names and types. -/
theorem ofMembers_step {s : Step} (hs : s.kind ≠ .body) (p : Part) :
    s.kind.ofMembers (s.members.map memberPart ++ [("rest", p)]) =
      (do let rest ← p.route; .ok (.step s rest)) := by
  obtain ⟨v, rest⟩ := p
  cases s with
  | segment literal => cases rest <;> rfl
  | capture name type => cases rest <;> rfl
  | modifier m =>
      cases m with
      | param place repeated name type => cases place <;> cases repeated <;> cases rest <;> rfl
      | flag place name => cases place <;> cases rest <;> rfl
      | body cts type => exact absurd rfl hs

/-- A step is made of its members exactly if its content types can be read. -/
theorem ofMembers_step_eq_ok_iff {s : Step} {p : Part} {r : Route} :
    s.kind.ofMembers (s.members.map memberPart ++ [("rest", p)]) = .ok r ↔
      (∀ ct ∈ s.contentTypes, ct.Readable) ∧
        ∃ rest, p.route = .ok rest ∧ r = .step (s.mapContentTypes .reread) rest := by
  rcases s.body_or_no_contentTypes with ⟨cts, type, rfl⟩ | ⟨hs, htypes, hmap⟩
  · change Kind.body.ofMembers [memberPart ("content_types", ContentType.listValue cts),
      memberPart ("type", .text type), ("rest", p)] = .ok r ↔ _
    simp only [ofMembers_body, bind_eq_ok, readContentTypes_listValue]
    constructor
    · rintro ⟨_, ⟨hcts, rfl⟩, rest, hrest, h⟩
      cases h
      exact ⟨hcts, rest, hrest, rfl⟩
    · rintro ⟨hcts, rest, hrest, rfl⟩
      exact ⟨_, ⟨hcts, rfl⟩, rest, hrest, rfl⟩
  · rw [ofMembers_step hs, bind_eq_ok, htypes, hmap]
    simp [eq_comm]

/-- A verb is made of its members, but for its content types. -/
theorem ofMembers_verb (v : Verb) :
    Kind.verb.ofMembers (v.members.map memberPart) =
      (do
        let cts ← readContentTypes (ContentType.listValue v.contentTypes)
        .ok (.verb { v with contentTypes := cts })) := by
  obtain ⟨method, cts, response⟩ := v
  cases cts with
  | nil => cases method <;> cases response <;> rfl
  | cons ct cts =>
      have hne : ct :: cts ≠ [] := List.cons_ne_nil ct cts
      cases response with
      | none =>
          simp only [Verb.members, if_neg hne, List.append_nil, List.map_cons, List.map_nil,
            Kind.ofMembers, Fields.ofMembers, Kind.fields, Field.key, List.find?,
            String.reduceBEq, Fields.read, fill, memberPart, Route.part]
          cases readContentTypes (ContentType.listValue (ct :: cts)) <;> cases method <;> rfl
      | some type =>
          simp only [Verb.members, if_neg hne, List.cons_append, List.nil_append, List.map_cons,
            List.map_nil, Kind.ofMembers, Fields.ofMembers, Kind.fields, Field.key, List.find?,
            String.reduceBEq, Fields.read, fill, memberPart, Route.part]
          cases readContentTypes (ContentType.listValue (ct :: cts)) <;> cases method <;> rfl

/-- A step is written as texts and lists of content types. -/
theorem Step.forall_mem_members {P : Value → Prop} (htext : ∀ s, P (.text s))
    (hlist : ∀ cts, P (ContentType.listValue cts)) (s : Step) : ∀ m ∈ s.members, P m.2 := by
  rcases s with _ | _ | ⟨_ | _ | _⟩ <;> simp [members, Modifier.members, htext, hlist]

/-- So is a verb. -/
theorem Verb.forall_mem_members {P : Value → Prop} (htext : ∀ s, P (.text s))
    (hlist : ∀ cts, P (ContentType.listValue cts)) (v : Verb) : ∀ m ∈ v.members, P m.2 := by
  obtain ⟨method, cts, _ | type⟩ := v <;> by_cases h : cts = [] <;>
    simp [members, h, htext, hlist]

/-! ## Kinds -/

/-- With the kind in front, the members behind it are the other members. -/
theorem splitKind_members {α β : Type} {readKind : α → Except ReadError Kind}
    {readPart : α → Except ReadError Part} {f : β → α} {g : β → Part} {kind : Option Kind}
    {ms : List (String × β)} (hname : ∀ m ∈ ms, m.1 ≠ "kind")
    (hpart : ∀ m ∈ ms, readPart (f m.2) = .ok (g m.2)) :
    splitKind readKind readPart kind (ms.map fun m => (some m.1, f m.2)) =
      .ok (kind, ms.map fun m => (m.1, g m.2)) := by
  induction ms with
  | nil => rfl
  | cons m ms ih =>
      obtain ⟨hm, hms⟩ := List.forall_mem_cons.mp hname
      obtain ⟨hp, hps⟩ := List.forall_mem_cons.mp hpart
      rw [List.map_cons, splitKind_cons_eq_ok_iff]
      exact ⟨m.1, rfl, .inr ⟨hm, g m.2, _, hp, ih hms hps, rfl⟩⟩

theorem readOuterKind_draft (k : Kind) :
    readOuterKind (Value.text k.name).draft = .ok k := readKindName_name k

namespace Route

/-- The kind comes first, and the route is made of the other members. -/
theorem ofValue_object {k : Kind} {ms : List (String × Value)} (h : ∀ m ∈ ms, m.1 ≠ "kind") :
    ofValue (.object (("kind", .text k.name) :: ms)) = k.ofMembers (ms.map memberPart) := by
  have hkind : readKind (.text k.name) = .ok k := readKindName_name k
  have hsplit : splitKind (fun p : Part => readKind p.value) .ok none
      ((memberParts (("kind", .text k.name) :: ms)).map fun m => (some m.1, m.2)) =
      .ok (some k, ms.map memberPart) := by
    rw [memberParts_eq_map, List.map_map, List.map_cons, splitKind_cons_eq_ok_iff]
    exact ⟨"kind", rfl, .inl ⟨rfl, rfl, k, hkind,
      splitKind_members (f := part) (g := part) h fun m _ => rfl⟩⟩
  rw [ofValue, Part.ofMembers, hsplit]
  rfl

/-- A part is read from a value that is not too deep. -/
theorem readPart_draft {room : Nat} {v : Value} (h : v.depth ≤ room) :
    readPart room v.draft = .ok (part v) := by
  rw [readPart, Draft.value_draft h]
  rfl

theorem ofDraft_object {k : Kind} {ms : List (String × Value)} {room : Nat}
    (h : ∀ m ∈ ms, m.1 ≠ "kind") (hdepth : (Value.object ms).depth ≤ room) :
    ofDraft room (Value.object (("kind", .text k.name) :: ms)).draft =
      k.ofMembers (ms.map memberPart) := by
  cases room with
  | zero => cases hdepth
  | succ room =>
      rw [Value.depth_object_le_iff] at hdepth
      have hsplit : splitKind readOuterKind (readPart room) none
          ((("kind", .text k.name) :: ms).map Value.memberDraft) =
          .ok (some k, ms.map memberPart) := by
        rw [List.map_cons, splitKind_cons_eq_ok_iff]
        exact ⟨"kind", rfl, .inl ⟨rfl, rfl, k, readOuterKind_draft k,
          splitKind_members h fun m hm => readPart_draft (hdepth m hm)⟩⟩
      rw [Value.draft_object, ofDraft, hsplit]
      rfl

/-! ## Routes -/

/-- What is written of a route behind its kind. -/
def members : Route → List (String × Value)
  | alt left right => [("left", left.toValue), ("right", right.toValue)]
  | step s rest => s.members ++ [("rest", rest.toValue)]
  | verb v => v.members

theorem toValue_eq (r : Route) :
    r.toValue = .object (("kind", .text r.kind.name) :: r.members) := by
  cases r <;> rfl

theorem kind_not_mem_members (r : Route) : ∀ m ∈ r.members, m.1 ≠ "kind" := by
  cases r with
  | alt left right => simp [members]
  | step s rest =>
      rcases s with _ | _ | ⟨_ | _ | _⟩ <;> simp [members, Step.members, Modifier.members]
  | verb v =>
      obtain ⟨method, cts, _ | type⟩ := v <;> by_cases h : cts = [] <;>
        simp [members, Verb.members, h]

/-- A route is read back from its members. -/
theorem ofValue_toValue (r : Route) :
    ofValue r.toValue = r.kind.ofMembers (r.members.map memberPart) := by
  rw [toValue_eq, ofValue_object r.kind_not_mem_members]

/-- The outermost node and those below it are written alike, and they are read alike. -/
theorem ofDraft_toValue {r : Route} {room : Nat} (h : r.toValue.depth ≤ room) :
    ofDraft room r.toValue.draft = ofValue r.toValue := by
  have hmembers : (Value.object r.members).depth ≤ room := by
    rw [toValue_eq] at h
    cases room with
    | zero => cases h
    | succ room =>
        rw [Value.depth_object_le_iff] at h ⊢
        exact (List.forall_mem_cons.mp h).2
  rw [ofValue_toValue, toValue_eq, ofDraft_object r.kind_not_mem_members hmembers]

/-- A written route is read if its content types are readable, and then it is as it was
but for them. -/
theorem ofValue_toValue_iff {r r' : Route} :
    ofValue r.toValue = .ok r' ↔
      (∀ ct ∈ r.contentTypes, ct.Readable) ∧ r' = r.mapContentTypes .reread := by
  rw [ofValue_toValue]
  induction r generalizing r' with
  | alt left right ihl ihr =>
      change Kind.alt.ofMembers [("left", part left.toValue), ("right", part right.toValue)] = _ ↔ _
      simp only [ofMembers_alt, part, ofValue_toValue, bind_eq_ok, ihl, ihr, contentTypes,
        List.forall_mem_append, mapContentTypes]
      constructor
      · rintro ⟨l, ⟨hl, rfl⟩, r, ⟨hr, rfl⟩, h⟩
        cases h
        exact ⟨⟨hl, hr⟩, rfl⟩
      · rintro ⟨⟨hl, hr⟩, rfl⟩
        exact ⟨_, ⟨hl, rfl⟩, _, ⟨hr, rfl⟩, rfl⟩
  | step s rest ih =>
      have hmembers : (step s rest).members.map memberPart =
          s.members.map memberPart ++ [("rest", part rest.toValue)] := List.map_append
      change s.kind.ofMembers _ = _ ↔ _
      rw [hmembers]
      simp only [ofMembers_step_eq_ok_iff, part, ofValue_toValue, ih, contentTypes,
        List.forall_mem_append, mapContentTypes]
      constructor
      · rintro ⟨hs, _, ⟨hrest, rfl⟩, rfl⟩
        exact ⟨⟨hs, hrest⟩, rfl⟩
      · rintro ⟨⟨hs, hrest⟩, rfl⟩
        exact ⟨hs, _, ⟨hrest, rfl⟩, rfl⟩
  | verb v =>
      change Kind.verb.ofMembers (v.members.map memberPart) = _ ↔ _
      simp only [ofMembers_verb, bind_eq_ok, readContentTypes_listValue, contentTypes,
        mapContentTypes]
      constructor
      · rintro ⟨cts, ⟨hcts, rfl⟩, h⟩
        cases h
        exact ⟨hcts, rfl⟩
      · rintro ⟨hcts, rfl⟩
        exact ⟨_, ⟨hcts, rfl⟩, rfl⟩

end Route

/-! ## Texts -/

theorem ContentType.hasSpelling_listValue (cts : List ContentType) :
    (listValue cts).HasSpelling := by
  rw [listValue, Value.hasSpelling_array_iff, List.forall_mem_map]
  exact fun ct _ => Value.hasSpelling_text ct.mediaType

namespace Route

theorem hasSpelling_toValue (r : Route) : r.toValue.HasSpelling := by
  have hkind (k : Kind) : (Value.text k.name).HasSpelling := Value.hasSpelling_text k.name
  induction r with
  | alt left right ihl ihr =>
      rw [toValue, Value.hasSpelling_object_iff]
      simp [hkind, ihl, ihr]
  | step s rest ih =>
      have hrest : ∀ m ∈ [("rest", rest.toValue)], m.2.HasSpelling := by simpa using ih
      rw [toValue, Value.hasSpelling_object_iff, List.cons_append, List.forall_mem_cons,
        List.forall_mem_append]
      exact ⟨hkind _,
        s.forall_mem_members Value.hasSpelling_text ContentType.hasSpelling_listValue, hrest⟩
  | verb v =>
      rw [toValue, Value.hasSpelling_object_iff, List.forall_mem_cons]
      exact ⟨hkind _,
        v.forall_mem_members Value.hasSpelling_text ContentType.hasSpelling_listValue⟩

theorem spaced_toText (r : Route) : Json.Token.Spaced r.toValue.tokens r.toText.toList :=
  Value.spaced_write r.hasSpelling_toValue

/-- While the text of a route is read, as many objects and arrays are open as its value
is deep. -/
theorem mostOpen_toText (r : Route) :
    Json.Token.mostOpen 0 (Json.Token.ofText r.toText) = r.toValue.depth :=
  Json.mostOpen_ofText r.spaced_toText

/-- A route that is not too deep is read from its text as from its value. -/
theorem ofText_toText_eq {r : Route} (h : r.toValue.depth ≤ Json.maxDepth) :
    ofText r.toText = ofValue r.toValue := by
  rw [ofText, Json.readText_of_spaced _ r.spaced_toText, ofDraft_toValue h]

/-- Canonical content types are read back as they are. -/
theorem ofValue_toValue_of_canonical {r : Route} (h : ∀ ct ∈ r.contentTypes, ct.Canonical) :
    ofValue r.toValue = .ok r := by
  have hread : r.mapContentTypes .reread = r :=
    mapContentTypes_eq_self fun ct hct => (h ct hct).reread_eq
  exact ofValue_toValue_iff.mpr ⟨fun ct hct => (h ct hct).readable, hread.symm⟩

/-- A route whose text is not nested too deeply is read back with all its content types
reread.  It is read back as it is if all of them are what their media types spell, and
it cannot be read back if one media type spells nothing. -/
theorem ofText_toText {r : Route}
    (h : Json.Token.mostOpen 0 (Json.Token.ofText r.toText) ≤ Json.maxDepth) :
    ((∀ ct ∈ r.contentTypes, ct.Readable) →
        ofText r.toText = .ok (r.mapContentTypes .reread)) ∧
      ((∀ ct ∈ r.contentTypes, ContentType.parse ct.mediaType = .ok ct) →
        ofText r.toText = .ok r) ∧
      ((∃ ct ∈ r.contentTypes, ¬ ct.Readable) → ∃ e, ofText r.toText = .error e) := by
  rw [mostOpen_toText] at h
  rw [ofText_toText_eq h]
  refine ⟨fun hcts => ofValue_toValue_iff.mpr ⟨hcts, rfl⟩, fun hcts => ?_, ?_⟩
  · exact ofValue_toValue_of_canonical fun ct hct => ContentType.canonical_iff.mpr (hcts ct hct)
  · rintro ⟨ct, hct, hunreadable⟩
    cases hread : ofValue r.toValue with
    | ok r' => exact absurd ((ofValue_toValue_iff.mp hread).1 ct hct) hunreadable
    | error e => exact ⟨e, rfl⟩

/-- A route with two content types, and with texts that have to be escaped. -/
def escaping (ct ct' : ContentType) : Route :=
  step (.segment "say \"ü\"\n") (alt
    (step (.modifier (.body [ct] "C:\\\x01"))
      (verb { method := .post, contentTypes := [.json, ct'], response := some "" }))
    (verb .delete))

/-- Two words that are no media types as they stand, two that are, and one that spells
nothing. -/
theorem ofText_toText_escaping :
    ofText (escaping (.other "json") (.other " Text/CSV")).toText =
        .ok (escaping .json (.other "text/csv")) ∧
      ofText (escaping .json (.other "text/csv")).toText =
        .ok (escaping .json (.other "text/csv")) ∧
      ∃ e, ofText (escaping .json (.other "csv")).toText = .error e := by
  have hdepth (ct ct' : ContentType) : Json.Token.mostOpen 0
      (Json.Token.ofText (escaping ct ct').toText) ≤ Json.maxDepth := by
    have h : (escaping ct ct').toValue.depth = 5 := rfl
    rw [mostOpen_toText, h]
    decide
  have htypes (ct ct' : ContentType) : (escaping ct ct').contentTypes = [ct, .json, ct'] := rfl
  refine ⟨(ofText_toText (hdepth _ _)).1 ?_, (ofText_toText (hdepth _ _)).2.1 ?_,
    (ofText_toText (hdepth _ _)).2.2 ⟨.other "csv", by simp [htypes], ?_⟩⟩
  · rw [htypes]
    simp only [List.forall_mem_cons]
    exact ⟨⟨.json, rfl⟩, ⟨.json, rfl⟩, ⟨ContentType.other "text/csv", rfl⟩, by simp⟩
  · rw [htypes]
    simp only [List.forall_mem_cons]
    exact ⟨rfl, rfl, rfl, by simp⟩
  · rintro ⟨ct, h⟩
    cases h

end Route

end VerifiedLinks

