import VerifiedLinks.Route.Reader

/-!
# The fields of a node, in any order

The fields that have been read are a record with a place for each field, and reading
one more fills its place (`Fields.get`, `Fields.set`, `Fields.read_eq_ok_iff`).  Places
are independent, so two fields can be read in either order (`Fields.read_comm`).

From that the order of the members of an object does not matter.  If a node can be
read with its members in one order, the same node is read from any other order of them
(`Part.ofMembers_perm` below the outermost node, `Route.ofDraft_perm` for that node
itself).  This is only true of success: with several faults the first one is reported.
-/

namespace VerifiedLinks

open Json (Value Draft ReadError mismatch orFault)

/-! ## Places -/

namespace Field

/-- What a field holds. -/
@[reducible] def Content : Field → Type
  | literal | name | type => String
  | contentTypes => List ContentType
  | left | right | rest => Route
  | method => Method
  | response => Option String

/-- A part as the content of a field. -/
def content : (f : Field) → Part → Except ReadError f.Content
  | literal, p => readString p.value
  | name, p => readString p.value
  | type, p => readString p.value
  | contentTypes, p => readContentTypes p.value
  | left, p => p.route
  | right, p => p.route
  | rest, p => p.route
  | method, p => readMethod p.value
  | response, p => readResponse p.value

end Field

/-- A field is filled once, with what is read. -/
theorem fill_eq_ok_iff {α : Type} {f : Field} {old new : Option α} {x : Except ReadError α} :
    fill f old x = .ok new ↔ old = none ∧ ∃ a, x = .ok a ∧ new = some a := by
  cases old with
  | some b => simp [fill, mismatch]
  | none =>
      cases x with
      | error e => simp [fill, Except.map]
      | ok a => simp [fill, Except.map, eq_comm]

namespace Fields

/-- What has been read of a field. -/
def get (fs : Fields) : (f : Field) → Option f.Content
  | .literal => fs.literal
  | .name => fs.name
  | .type => fs.type
  | .contentTypes => fs.contentTypes
  | .left => fs.left
  | .right => fs.right
  | .rest => fs.rest
  | .method => fs.method
  | .response => fs.response

/-- The fields with one of them filled. -/
def set (fs : Fields) : (f : Field) → f.Content → Fields
  | .literal, x => { fs with literal := some x }
  | .name, x => { fs with name := some x }
  | .type, x => { fs with type := some x }
  | .contentTypes, x => { fs with contentTypes := some x }
  | .left, x => { fs with left := some x }
  | .right, x => { fs with right := some x }
  | .rest, x => { fs with rest := some x }
  | .method, x => { fs with method := some x }
  | .response, x => { fs with response := some x }

@[simp] theorem get_set_self (fs : Fields) (f : Field) (x : f.Content) :
    (fs.set f x).get f = some x := by
  cases f <;> rfl

theorem get_set_of_ne (fs : Fields) {f g : Field} (h : f ≠ g) (x : f.Content) :
    (fs.set f x).get g = fs.get g := by
  cases f <;> cases g <;> first | rfl | exact absurd rfl h

theorem set_comm (fs : Fields) {f g : Field} (h : f ≠ g) (x : f.Content) (y : g.Content) :
    (fs.set f x).set g y = (fs.set g y).set f x := by
  cases f <;> cases g <;> first | rfl | exact absurd rfl h

theorem get_empty (f : Field) : ({} : Fields).get f = none := by
  cases f <;> rfl

/-- A field is read if its place is free and the part has the right content. -/
theorem read_eq_ok_iff {fs fs' : Fields} {f : Field} {p : Part} :
    fs.read f p = .ok fs' ↔ fs.get f = none ∧ ∃ x, f.content p = .ok x ∧ fs' = fs.set f x := by
  have key {α : Type} (old : Option α) (x : Except ReadError α) (g : Option α → Fields) :
      (do .ok (g (← fill f old x))) = Except.ok fs' ↔
        old = none ∧ ∃ a, x = .ok a ∧ fs' = g (some a) := by
    rw [bind_eq_ok]
    constructor
    · rintro ⟨o, ho, h⟩
      cases h
      obtain ⟨hold, a, hx, rfl⟩ := fill_eq_ok_iff.mp ho
      exact ⟨hold, a, hx, rfl⟩
    · rintro ⟨hold, a, hx, rfl⟩
      exact ⟨some a, fill_eq_ok_iff.mpr ⟨hold, a, hx, rfl⟩, rfl⟩
  cases f with
  | literal => exact key _ _ fun o => { fs with literal := o }
  | name => exact key _ _ fun o => { fs with name := o }
  | type => exact key _ _ fun o => { fs with type := o }
  | contentTypes => exact key _ _ fun o => { fs with contentTypes := o }
  | left => exact key _ _ fun o => { fs with left := o }
  | right => exact key _ _ fun o => { fs with right := o }
  | rest => exact key _ _ fun o => { fs with rest := o }
  | method => exact key _ _ fun o => { fs with method := o }
  | response => exact key _ _ fun o => { fs with response := o }

/-- Two fields that are read one after the other can be read the other way round. -/
theorem read_comm {fs fs₁ fs₂ : Fields} {f g : Field} {p q : Part}
    (hp : fs.read f p = .ok fs₁) (hq : fs₁.read g q = .ok fs₂) :
    ∃ fs', fs.read g q = .ok fs' ∧ fs'.read f p = .ok fs₂ := by
  obtain ⟨hf, x, hx, rfl⟩ := read_eq_ok_iff.mp hp
  obtain ⟨hg, y, hy, rfl⟩ := read_eq_ok_iff.mp hq
  have hne : f ≠ g := by
    rintro rfl
    rw [get_set_self] at hg
    cases hg
  rw [get_set_of_ne fs hne] at hg
  refine ⟨fs.set g y, read_eq_ok_iff.mpr ⟨hg, y, hy, rfl⟩, read_eq_ok_iff.mpr ⟨?_, x, hx, ?_⟩⟩
  · rw [get_set_of_ne fs hne.symm, hf]
  · rw [set_comm fs hne]

/-! ## Members -/

/-- The fields of a kind with one more member looked at. -/
def readMember (k : Kind) (fs : Fields) (m : String × Part) : Except ReadError Fields :=
  match k.fields.find? fun f => f.key == m.1 with
  | some f => fs.read f m.2
  | none => .ok fs

theorem ofMembers_cons (k : Kind) (fs : Fields) (m : String × Part) (ms : List (String × Part)) :
    ofMembers k fs (m :: ms) = readMember k fs m >>= fun fs => ofMembers k fs ms := by
  rw [ofMembers, readMember]
  cases k.fields.find? (fun f => f.key == m.1) with
  | some f => rfl
  | none => rfl

/-- Two members that are read one after the other can be read the other way round, with the same
fields in the end. -/
theorem readMember_comm {k : Kind} {fs fs₁ fs₂ : Fields} {m n : String × Part}
    (hm : readMember k fs m = .ok fs₁) (hn : readMember k fs₁ n = .ok fs₂) :
    ∃ fs', readMember k fs n = .ok fs' ∧ readMember k fs' m = .ok fs₂ := by
  unfold readMember at hm hn ⊢
  cases hf : k.fields.find? (fun f => f.key == m.1) with
  | none =>
      rw [hf] at hm
      cases hm
      exact ⟨fs₂, hn, rfl⟩
  | some f =>
      rw [hf] at hm
      cases hg : k.fields.find? (fun f => f.key == n.1) with
      | none =>
          rw [hg] at hn
          cases hn
          exact ⟨fs, rfl, hm⟩
      | some g =>
          rw [hg] at hn
          exact read_comm hm hn

/-- Members can be read in any order. -/
theorem ofMembers_perm {k : Kind} {ms ms' : List (String × Part)} (hperm : ms.Perm ms')
    {fs fs' : Fields} (h : ofMembers k fs ms = .ok fs') : ofMembers k fs ms' = .ok fs' := by
  induction hperm generalizing fs with
  | nil => exact h
  | cons m _ ih =>
      rw [ofMembers_cons] at h ⊢
      obtain ⟨fs₁, hm, h⟩ := bind_eq_ok.mp h
      exact bind_eq_ok.mpr ⟨fs₁, hm, ih h⟩
  | swap m n ms =>
      rw [ofMembers_cons, bind_eq_ok] at h
      obtain ⟨fs₁, hn, h⟩ := h
      rw [ofMembers_cons, bind_eq_ok] at h
      obtain ⟨fs₂, hm, h⟩ := h
      obtain ⟨fs₃, hm, hn⟩ := readMember_comm hn hm
      rw [ofMembers_cons, bind_eq_ok]
      refine ⟨fs₃, hm, ?_⟩
      rw [ofMembers_cons, bind_eq_ok]
      exact ⟨fs₂, hn, h⟩
  | trans _ _ ih ih' => exact ih' (ih h)

end Fields

theorem Kind.ofMembers_perm {k : Kind} {ms ms' : List (String × Part)} (hperm : ms.Perm ms')
    {r : Route} (h : k.ofMembers ms = .ok r) : k.ofMembers ms' = .ok r := by
  obtain ⟨fs, hfs, hr⟩ := bind_eq_ok.mp h
  exact bind_eq_ok.mpr ⟨fs, Fields.ofMembers_perm hperm hfs, hr⟩

/-! ## The kind -/

section

variable {α : Type} {readKind : α → Except ReadError Kind} {readPart : α → Except ReadError Part}

/-- The kind is taken out once, and every other member is kept as a part. -/
theorem splitKind_cons_eq_ok_iff {kind : Option Kind} {m : Option String × α}
    {ms : List (Option String × α)} {k : Option Kind} {ps : List (String × Part)} :
    splitKind readKind readPart kind (m :: ms) = .ok (k, ps) ↔ ∃ name, m.1 = some name ∧
      ((name = "kind" ∧ kind = none ∧ ∃ k', readKind m.2 = .ok k' ∧
          splitKind readKind readPart (some k') ms = .ok (k, ps)) ∨
        (name ≠ "kind" ∧ ∃ p ps', readPart m.2 = .ok p ∧
          splitKind readKind readPart kind ms = .ok (k, ps') ∧ ps = (name, p) :: ps')) := by
  obtain ⟨_ | name, a⟩ := m
  · simp [splitKind, Draft.required, orFault, bind_eq_ok]
  · by_cases hname : name = "kind"
    · cases kind with
      | none => simp [splitKind, Draft.required, orFault, bind_eq_ok, hname]
      | some k' => simp [splitKind, Draft.required, orFault, bind_eq_ok, hname, mismatch]
    · simp only [splitKind, Draft.required, orFault, bind_eq_ok, Except.ok.injEq, Option.some.injEq,
        exists_eq_left', hname, if_false, false_and, false_or, ne_eq, not_false_iff, true_and]
      constructor
      · rintro ⟨p, hp, ⟨k', ps'⟩, hrest, h⟩
        cases h
        exact ⟨p, ps', hp, hrest, rfl⟩
      · rintro ⟨p, ps', hp, hrest, rfl⟩
        exact ⟨p, hp, (k, ps'), hrest, rfl⟩

/-- The kind is found wherever it stands, and the same parts are left. -/
theorem splitKind_perm {ms ms' : List (Option String × α)} (hperm : ms.Perm ms')
    {kind k : Option Kind} {ps : List (String × Part)}
    (h : splitKind readKind readPart kind ms = .ok (k, ps)) :
    ∃ ps', splitKind readKind readPart kind ms' = .ok (k, ps') ∧ ps.Perm ps' := by
  induction hperm generalizing kind ps with
  | nil => exact ⟨ps, h, .refl ps⟩
  | cons m _ ih =>
      obtain ⟨name, hm, ⟨hname, hnone, k', hk, hrest⟩ | ⟨hname, p, ps₁, hp, hrest, rfl⟩⟩ :=
        splitKind_cons_eq_ok_iff.mp h
      · obtain ⟨ps', h', hps⟩ := ih hrest
        exact ⟨ps', splitKind_cons_eq_ok_iff.mpr ⟨name, hm, .inl ⟨hname, hnone, k', hk, h'⟩⟩, hps⟩
      · obtain ⟨ps', h', hps⟩ := ih hrest
        exact ⟨(name, p) :: ps',
          splitKind_cons_eq_ok_iff.mpr ⟨name, hm, .inr ⟨hname, p, ps', hp, h', rfl⟩⟩, hps.cons _⟩
  | swap m n ms =>
      simp only [splitKind_cons_eq_ok_iff] at h ⊢
      obtain ⟨s, hn, ⟨hs, rfl, k', hk, t, hm, hrest⟩ | ⟨hs, p, ps₁, hp, ⟨t, hm, hrest⟩, rfl⟩⟩ := h
      -- The kind comes first in the old order, so the other member is no kind.
      · rcases hrest with ⟨_, hnone, _⟩ | ⟨ht, q, ps₁, hq, hrest, rfl⟩
        · cases hnone
        · exact ⟨_, ⟨t, hm, .inr ⟨ht, q, ps₁, hq, ⟨s, hn, .inl ⟨hs, rfl, k', hk, hrest⟩⟩, rfl⟩⟩,
            .refl _⟩
      · rcases hrest with ⟨ht, rfl, k', hk, hrest⟩ | ⟨ht, q, ps₂, hq, hrest, rfl⟩
        · exact ⟨_, ⟨t, hm, .inl ⟨ht, rfl, k', hk, s, hn, .inr ⟨hs, p, ps₁, hp, hrest, rfl⟩⟩⟩,
            .refl _⟩
        · exact ⟨_, ⟨t, hm, .inr ⟨ht, q, _, hq, ⟨s, hn, .inr ⟨hs, p, ps₂, hp, hrest, rfl⟩⟩, rfl⟩⟩,
            .swap ..⟩
  | trans _ _ ih ih' =>
      obtain ⟨ps', h', hps⟩ := ih h
      obtain ⟨ps'', h'', hps'⟩ := ih' h'
      exact ⟨ps'', h'', hps.trans hps'⟩

end

/-! ## Nodes -/

/-- A node that is read is read in any order of its members. -/
theorem Part.ofMembers_perm {ms ms' : List (String × Part)} (hperm : ms.Perm ms') {r : Route}
    (h : Part.ofMembers ms = .ok r) : Part.ofMembers ms' = .ok r := by
  obtain ⟨⟨kind, ps⟩, hsplit, h⟩ := bind_eq_ok.mp h
  obtain ⟨k, hk, h⟩ := bind_eq_ok.mp h
  obtain ⟨ps', hsplit', hps⟩ := splitKind_perm (hperm.map _) hsplit
  exact bind_eq_ok.mpr ⟨_, hsplit', bind_eq_ok.mpr ⟨k, hk, k.ofMembers_perm hps h⟩⟩

/-- The outermost node of a text, too, is read in any order of its members. -/
theorem Route.ofDraft_perm {room : Nat} {ms ms' : List (Option String × Draft)}
    (hperm : ms.Perm ms') {stop : Option Json.Break} {r : Route}
    (h : ofDraft room (.object ms stop) = .ok r) : ofDraft room (.object ms' stop) = .ok r := by
  cases room with
  | zero => cases h
  | succ room =>
      obtain ⟨⟨kind, ps⟩, hsplit, h⟩ := bind_eq_ok.mp h
      obtain ⟨⟨⟩, hstop, h⟩ := bind_eq_ok.mp h
      obtain ⟨k, hk, h⟩ := bind_eq_ok.mp h
      obtain ⟨ps', hsplit', hps⟩ := splitKind_perm hperm hsplit
      exact bind_eq_ok.mpr ⟨_, hsplit', bind_eq_ok.mpr ⟨(), hstop,
        bind_eq_ok.mpr ⟨k, hk, k.ofMembers_perm hps h⟩⟩⟩

end VerifiedLinks
