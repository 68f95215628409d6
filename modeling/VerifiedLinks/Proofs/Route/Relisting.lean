import VerifiedLinks.Proofs.Route.Preorder

/-!
# Lists of content types

Content types are listed at verbs and at bodies, and the two lists are compared in different
ways.  Of two verbs the content types of one must be among those of the other, so neither
order nor repetition counts.  Two bodies must be equal, and then their lists are equal as
lists.

`Route.Relisted` lists the content types of a route anew: those of each verb in any order and
number, and those of each body as a relation between lists allows.  Lists of verbs never
matter to containment, and lists of bodies matter only by being equal or not
(`Route.contains_relisted`).

So it can be said of every API and every target whether other lists of the same content types
can be noticed (`Route.contains_relisted_iff`).  They cannot if the target has nothing in the
lists of its bodies, and they cannot if no such lists of the API offer the target.  In all
other cases they can, as a list may be made longer than all lists of the API.  An upload in two
content types is not an endpoint any more when the target lists them the other way round
(`contains_swappedUpload`).
-/

namespace VerifiedLinks

/-! ## Lists anew -/

/-- The lists hold the same content types, in any order and number. -/
def SameTypes (cts cts' : List ContentType) : Prop :=
  ∀ ct, ct ∈ cts ↔ ct ∈ cts'

/-- The same step, but for the list of a body, which is exchanged as `R` allows. -/
inductive Step.Relisted (R : List ContentType → List ContentType → Prop) : (s s' : Step) → Prop
  | same (s : Step) : s.kind ≠ .body → Relisted R s s
  | body {cts cts' : List ContentType} (type : String) :
      R cts cts' → Relisted R (modifier (.body cts type)) (modifier (.body cts' type))

/-- The same route, but for the order and the repetition of the content types of verbs, and
for the lists of bodies, which are exchanged as `R` allows. -/
inductive Route.Relisted (R : List ContentType → List ContentType → Prop) : (r r' : Route) → Prop
  | alt {left left' right right' : Route} :
      Relisted R left left' → Relisted R right right' →
        Relisted R (alt left right) (alt left' right')
  | step {s s' : Step} {r r' : Route} :
      s.Relisted R s' → Relisted R r r' → Relisted R (step s r) (step s' r')
  | verb {v v' : Verb} : v.Alike v' → Relisted R (verb v) (verb v')

section

variable {R S : List ContentType → List ContentType → Prop}

theorem Step.Relisted.symm {s s' : Step} (h : s.Relisted R s') :
    s'.Relisted (fun cts cts' => R cts' cts) s := by
  cases h with
  | same _ hs => exact .same s hs
  | body type hcts => exact .body type hcts

theorem Verb.Alike.symm {v v' : Verb} (h : v.Alike v') : v'.Alike v :=
  Verb.alike_iff_admits.mpr (Verb.alike_iff_admits.mp h).symm

theorem Route.Relisted.symm {r r' : Route} (h : r.Relisted R r') :
    r'.Relisted (fun cts cts' => R cts' cts) r := by
  induction h with
  | alt _ _ ihl ihr => exact .alt ihl ihr
  | step hs _ ih => exact .step hs.symm ih
  | verb hv => exact .verb hv.symm

/-! ## What is offered -/

/-- Steps that admit each other still do, if equal lists stay equal. -/
theorem Step.Admits.relisted
    (hRS : ∀ {cts cts' ds ds'}, R cts cts' → S ds ds' → cts = ds → cts' = ds')
    {s s' t t' : Step} (h : s.Admits t) (hs : s.Relisted R s') (ht : t.Relisted S t') :
    s'.Admits t' := by
  cases h with
  | same =>
      cases hs with
      | same _ hkind =>
          cases ht with
          | same => exact .same s
          | body => exact absurd rfl hkind
      | body type hcts =>
          cases ht with
          | same _ hkind => exact absurd rfl hkind
          | body _ hds =>
              rw [hRS hcts hds rfl]
              exact .same _
  | segment literal name type =>
      cases hs with
      | same => cases ht with | same => exact .segment literal name type
  | capture name type name' type' =>
      cases hs with
      | same => cases ht with | same => exact .capture name type name' type'

/-- Whether a verb admits another one depends on the set of content types only. -/
theorem Verb.Admits.alike {v v' w w' : Verb} (h : v.Admits w) (hv : v.Alike v')
    (hw : w.Alike w') : v'.Admits w' :=
  ((Verb.alike_iff_admits.mp hv).2.trans h).trans (Verb.alike_iff_admits.mp hw).1

/-- What was offered is offered still, if equal lists stay equal.  No rule asks for two bodies
to be different, so different lists may become equal here. -/
theorem Route.Offers.relisted
    (hRS : ∀ {cts cts' ds ds'}, R cts cts' → S ds ds' → cts = ds → cts' = ds')
    {a a' t t' : Route} (h : Offers a t) (ha : a.Relisted R a') (ht : t.Relisted S t') :
    Offers a' t' := by
  induction h generalizing a' t' with
  | left _ ih => cases ha with | alt hl _ => exact .left (ih hl ht)
  | right _ ih => cases ha with | alt _ hr => exact .right (ih hr ht)
  | step hs _ ih =>
      cases ha with
      | step hsa ha =>
          cases ht with
          | step hst ht => exact .step (hs.relisted hRS hsa hst) (ih ha ht)
  | pass _ ih =>
      cases ha with
      | step hs ha =>
          cases hs with
          | same => exact .pass (ih ha ht)
          | body => exact .pass (ih ha ht)
  | verb hv =>
      cases ha with
      | verb hva => cases ht with | verb hvt => exact .verb (hv.alike hva hvt)

end

namespace Route

/-- Containment does not change as long as lists of bodies that were equal, and only those, are
equal afterwards. -/
theorem contains_relisted {R S : List ContentType → List ContentType → Prop}
    (hRS : ∀ {cts cts' ds ds'}, R cts cts' → S ds ds' → (cts = ds ↔ cts' = ds'))
    {a a' t t' : Route} (ha : a.Relisted R a') (ht : t.Relisted S t') :
    a'.contains t' = a.contains t := by
  rw [Bool.eq_iff_iff, contains_iff_offers, contains_iff_offers]
  constructor
  · intro h
    exact h.relisted (fun hcts hds => (hRS hcts hds).mpr) ha.symm ht.symm
  · intro h
    exact h.relisted (fun hcts hds => (hRS hcts hds).mp) ha ht

end Route

/-! ## The same content types -/

namespace SameTypes

theorem refl (cts : List ContentType) : SameTypes cts cts := fun _ => Iff.rfl

theorem symm {cts cts' : List ContentType} (h : SameTypes cts cts') : SameTypes cts' cts :=
  fun ct => (h ct).symm

theorem trans {cts cts' cts'' : List ContentType} (h : SameTypes cts cts')
    (h' : SameTypes cts' cts'') : SameTypes cts cts'' :=
  fun ct => (h ct).trans (h' ct)

theorem eq_nil_iff {cts cts' : List ContentType} (h : SameTypes cts cts') :
    cts = [] ↔ cts' = [] := by
  rw [List.eq_nil_iff_forall_not_mem, List.eq_nil_iff_forall_not_mem]
  exact forall_congr' fun ct => not_congr (h ct)

end SameTypes

theorem Verb.Alike.refl (v : Verb) : v.Alike v :=
  Verb.alike_iff_admits.mpr ⟨.refl v, .refl v⟩

theorem Verb.Alike.trans {v v' v'' : Verb} (h : v.Alike v') (h' : v'.Alike v'') : v.Alike v'' := by
  rw [Verb.alike_iff_admits] at *
  exact ⟨h.1.trans h'.1, h'.2.trans h.2⟩

theorem Step.Relisted.refl (s : Step) : s.Relisted SameTypes s := by
  cases s with
  | segment literal => exact .same _ (by simp [kind])
  | capture name type => exact .same _ (by simp [kind])
  | modifier m =>
      cases m with
      | body cts type => exact .body type (.refl cts)
      | param place repeated name type => exact .same _ (by simp [kind, Modifier.kind])
      | flag place name => exact .same _ (by simp [kind, Modifier.kind])

theorem Step.Relisted.trans {s s' s'' : Step} (h : s.Relisted SameTypes s')
    (h' : s'.Relisted SameTypes s'') : s.Relisted SameTypes s'' := by
  cases h with
  | same _ hs => exact h'
  | body type hcts =>
      cases h' with
      | same _ hs => exact absurd rfl hs
      | body _ hcts' => exact .body type (hcts.trans hcts')

/-- If the target is relisted, so can be the step that admits it. -/
theorem Step.Admits.exists_relisted {s t t' : Step} (h : s.Admits t)
    (ht : t.Relisted SameTypes t') : ∃ s', s.Relisted SameTypes s' ∧ s'.Admits t' := by
  cases h with
  | same => exact ⟨t', ht, .same t'⟩
  | segment literal name type =>
      cases ht with
      | same => exact ⟨_, .refl _, .segment literal name type⟩
  | capture name type name' type' =>
      cases ht with
      | same => exact ⟨_, .refl _, .capture name type name' type'⟩

namespace Route

theorem Relisted.refl (r : Route) : r.Relisted SameTypes r := by
  induction r with
  | alt left right ihl ihr => exact .alt ihl ihr
  | step s rest ih => exact .step (.refl s) ih
  | verb v => exact .verb (.refl v)

theorem Relisted.symm_sameTypes {r r' : Route} (h : r.Relisted SameTypes r') :
    r'.Relisted SameTypes r := by
  have hsymm : (fun cts cts' => SameTypes cts' cts) = SameTypes := by
    funext cts cts'
    exact propext ⟨.symm, .symm⟩
  exact hsymm ▸ h.symm

theorem Relisted.trans {r r' r'' : Route} (h : r.Relisted SameTypes r')
    (h' : r'.Relisted SameTypes r'') : r.Relisted SameTypes r'' := by
  induction h generalizing r'' with
  | alt _ _ ihl ihr => cases h' with | alt hl hr => exact .alt (ihl hl) (ihr hr)
  | step hs _ ih => cases h' with | step hs' hr => exact .step (hs.trans hs') (ih hr)
  | verb hv => cases h' with | verb hv' => exact .verb (hv.trans hv')

/-- What is offered is offered with other lists, if the lists of the API may be changed as
well.  Those that the target does not ask for stay as they are. -/
theorem Offers.exists_relisted {a t t' : Route} (h : Offers a t) (ht : t.Relisted SameTypes t') :
    ∃ a', a.Relisted SameTypes a' ∧ Offers a' t' := by
  induction h generalizing t' with
  | left _ ih =>
      obtain ⟨left', hl, hoffers⟩ := ih ht
      exact ⟨_, .alt hl (.refl _), .left hoffers⟩
  | right _ ih =>
      obtain ⟨right', hr, hoffers⟩ := ih ht
      exact ⟨_, .alt (.refl _) hr, .right hoffers⟩
  | step hs _ ih =>
      cases ht with
      | step hst ht =>
          obtain ⟨a', ha, hoffers⟩ := ih ht
          obtain ⟨s', hs', hadmits⟩ := hs.exists_relisted hst
          exact ⟨_, .step hs' ha, .step hadmits hoffers⟩
  | pass _ ih =>
      obtain ⟨a', ha, hoffers⟩ := ih ht
      exact ⟨_, .step (.refl _) ha, .pass hoffers⟩
  | verb hv =>
      cases ht with
      | verb hw => exact ⟨_, .refl _, .verb (hv.alike (.refl _) hw)⟩

end Route

/-! ## Lists of bodies -/

/-- The list of a body. -/
def Step.bodyList? : Step → Option (List ContentType)
  | modifier (.body cts _) => some cts
  | _ => none

/-- The list of a body is changed. -/
def Step.mapBody (f : List ContentType → List ContentType) : Step → Step
  | modifier (.body cts type) => modifier (.body (f cts) type)
  | s => s

namespace Route

/-- The lists of all bodies. -/
def bodyLists : Route → List (List ContentType)
  | alt left right => left.bodyLists ++ right.bodyLists
  | step s rest => s.bodyList?.toList ++ rest.bodyLists
  | verb _ => []

/-- The lists of all bodies are changed. -/
def mapBodies (f : List ContentType → List ContentType) : Route → Route
  | alt left right => alt (left.mapBodies f) (right.mapBodies f)
  | step s rest => step (s.mapBody f) (rest.mapBodies f)
  | verb v => verb v

theorem bodyLists_mapBodies (f : List ContentType → List ContentType) (r : Route) :
    (r.mapBodies f).bodyLists = r.bodyLists.map f := by
  induction r with
  | alt left right ihl ihr => simp [mapBodies, bodyLists, ihl, ihr]
  | step s rest ih =>
      have hstep : (s.mapBody f).bodyList?.toList = s.bodyList?.toList.map f := by
        rcases s with _ | _ | _ | _ | _ <;> rfl
      rw [mapBodies, bodyLists, bodyLists, hstep, ih, List.map_append]
  | verb v => rfl

/-- Lists of the same types may take the place of those of bodies. -/
theorem relisted_mapBodies {f : List ContentType → List ContentType}
    (hf : ∀ cts, SameTypes cts (f cts)) (r : Route) : r.Relisted SameTypes (r.mapBodies f) := by
  induction r with
  | alt left right ihl ihr => exact .alt ihl ihr
  | step s rest ih =>
      have hstep : s.Relisted SameTypes (s.mapBody f) := by
        rcases s with _ | _ | ⟨cts, type⟩ | _ | _
        case modifier.body => exact .body type (hf cts)
        all_goals exact .refl _
      exact .step hstep ih
  | verb v => exact .verb (.refl v)

/-- A body of the target is a body of the API. -/
theorem Offers.bodyLists_subset {a t : Route} (h : Offers a t) : t.bodyLists ⊆ a.bodyLists := by
  induction h with
  | left _ ih => exact List.subset_append_of_subset_left _ ih
  | right _ ih => exact List.subset_append_of_subset_right _ ih
  | @step s s' a t hs _ ih =>
      cases hs with
      | same =>
          exact List.append_subset.mpr
            ⟨List.subset_append_left _ _, List.subset_append_of_subset_right _ ih⟩
      | segment => exact ih
      | capture => exact ih
  | pass _ ih => exact List.subset_append_of_subset_right _ ih
  | verb => exact List.nil_subset _

/-- Lists of bodies with nothing in them cannot be listed in another way. -/
theorem Relisted.of_bodyLists {t t' : Route} (h : t.Relisted SameTypes t')
    (hempty : ∀ cts ∈ t.bodyLists, cts = []) :
    t.Relisted (fun cts cts' => cts = [] ∧ cts' = []) t' := by
  induction h with
  | alt _ _ ihl ihr =>
      obtain ⟨hl, hr⟩ := List.forall_mem_append.mp hempty
      exact .alt (ihl hl) (ihr hr)
  | step hs _ ih =>
      obtain ⟨hstep, hrest⟩ := List.forall_mem_append.mp hempty
      cases hs with
      | same _ hkind => exact .step (.same _ hkind) (ih hrest)
      | body type hcts =>
          have hnil := hstep _ (List.mem_singleton_self _)
          exact .step (.body type ⟨hnil, hcts.eq_nil_iff.mp hnil⟩) (ih hrest)
  | verb hv => exact .verb hv

/-- The list is repeated. -/
def stretch (n : Nat) (cts : List ContentType) : List ContentType :=
  (List.replicate n cts).flatten

/-- A list that is repeated has the same types. -/
theorem sameTypes_stretch {n : Nat} (hn : n ≠ 0) (cts : List ContentType) :
    SameTypes cts (stretch n cts) := by
  intro ct
  simp [stretch, hn]

theorem le_length_stretch {n : Nat} {cts : List ContentType} (h : cts ≠ []) :
    n ≤ (stretch n cts).length := by
  have hpos : 0 < cts.length := List.length_pos_iff.mpr h
  simpa [stretch] using Nat.le_mul_of_pos_right n hpos

/-- Long enough, a list is none of those at hand. -/
theorem stretch_not_mem {cts : List ContentType} (h : cts ≠ []) (l : List (List ContentType)) :
    stretch (l.flatten.length + 1) cts ∉ l := by
  intro hmem
  have hle := (List.sublist_flatten_of_mem hmem).length_le
  have hge := le_length_stretch (n := l.flatten.length + 1) h
  omega

/-- The content types of verbs may be listed in any order and number, in the API and in the
target, without a change to what is contained.  If those of bodies may be listed in any order
and number as well, then nothing changes exactly if the target has nothing in the lists of its
bodies, or if the API does not contain it however its bodies are listed. -/
theorem contains_relisted_iff (a t : Route) :
    (∀ a' t', a.Relisted Eq a' → t.Relisted Eq t' → a'.contains t' = a.contains t) ∧
    ((∀ a' t', a.Relisted SameTypes a' → t.Relisted SameTypes t' →
        a'.contains t' = a.contains t) ↔
      (∀ cts ∈ t.bodyLists, cts = []) ∨
        ∀ a', a.Relisted SameTypes a' → a'.contains t = false) := by
  constructor
  · intro a' t'
    refine contains_relisted fun hcts hds => ?_
    rw [hcts, hds]
  constructor
  · intro h
    by_cases hempty : ∀ cts ∈ t.bodyLists, cts = []
    · exact .inl hempty
    · refine .inr fun a' ha => ?_
      rw [← Bool.not_eq_true]
      intro hcontains
      -- A list of the target is made longer than all lists of the API.
      obtain ⟨cts, hcts, hne⟩ : ∃ cts ∈ t.bodyLists, cts ≠ [] := by simpa using hempty
      let n := a.bodyLists.flatten.length + 1
      have hstretched := h a _ (.refl a) (relisted_mapBodies (sameTypes_stretch (n := n)
        (Nat.succ_ne_zero _)) t)
      rw [← h a' t ha (.refl t), hcontains, contains_iff_offers] at hstretched
      have hmem : stretch n cts ∈ (t.mapBodies (stretch n)).bodyLists := by
        rw [bodyLists_mapBodies]
        exact List.mem_map_of_mem hcts
      exact stretch_not_mem hne a.bodyLists (hstretched.bodyLists_subset hmem)
  · intro h a' t' ha ht
    cases h with
    | inl hempty =>
        refine contains_relisted (fun hcts hds => ?_) ha (ht.of_bodyLists hempty)
        rw [hds.1, hds.2]
        exact hcts.eq_nil_iff
    | inr hnever =>
        rw [hnever a (.refl a), ← Bool.not_eq_true, contains_iff_offers]
        intro hoffers
        obtain ⟨a'', ha', hback⟩ := hoffers.exists_relisted ht.symm_sameTypes
        have hcontains := contains_iff_offers.mpr hback
        rw [hnever a'' (ha.trans ha')] at hcontains
        cases hcontains

/-! ## Uploads -/

/-- Something is sent in one of the content types and is then gone. -/
def upload (cts : List ContentType) : Route :=
  step (.modifier (.body cts "File")) (verb .delete)

theorem relisted_upload {R : List ContentType → List ContentType → Prop}
    {cts cts' : List ContentType} (h : R cts cts') : (upload cts).Relisted R (upload cts') :=
  .step (.body "File" h) (.verb (.refl _))

/-- A list of names, in one of the content types. -/
def names (cts : List ContentType) : Route :=
  verb { method := .get, contentTypes := cts, response := some "Names" }

/-- Files that can be uploaded, and whose names can be listed. -/
def files (cts ds : List ContentType) : Route :=
  step (.segment "files") (alt (upload cts) (names ds))

/-- The names are found whatever the order and the repetition in which their content types are
listed, and however the upload beside them is listed. -/
theorem contains_relisted_files :
    (files [.json, .xml] [.html, .json, .html]).contains
        (step (.segment "files") (names [.html, .json])) = true ∧
      (files [.xml, .json] [.html, .json, .html]).contains
        (step (.segment "files") (names [.html, .json])) = true := by
  have hfiles {R : List ContentType → List ContentType → Prop} {s r : Route}
      (h : s.Relisted R r) : (step (.segment "files") s).Relisted R (step (.segment "files") r) :=
    .step (.same _ (by decide)) h
  have hnames {R : List ContentType → List ContentType → Prop} {cts cts' : List ContentType}
      (h : SameTypes cts cts') : (names cts).Relisted R (names cts') := .verb ⟨rfl, rfl, h⟩
  have htwice : SameTypes [.json, .html] [.html, .json, .html] := fun ct => by simp [or_comm]
  have hturned : SameTypes [.json, .html] [.html, .json] := fun ct => by simp [or_comm]
  have hupload : SameTypes [.json, .xml] [.xml, .json] := fun ct => by simp [or_comm]
  obtain ⟨hverbs, hbodies⟩ := contains_relisted_iff (files [.json, .xml] [.json, .html])
    (step (.segment "files") (names [.json, .html]))
  constructor
  · have hsame := hverbs _ _ (hfiles (.alt (relisted_upload rfl) (hnames htwice)))
      (hfiles (hnames hturned))
    exact hsame.trans (by decide)
  · have hsame := hbodies.mpr (.inl (by decide)) _ _
      (hfiles (.alt (relisted_upload hupload) (hnames htwice))) (hfiles (hnames hturned))
    exact hsame.trans (by decide)

/-- An upload in two content types is not found in an API that lists the same two in another
order, though it is found in one that lists them in its own. -/
theorem contains_swappedUpload :
    (upload [.json, .xml]).Relisted SameTypes (upload [.json, .xml]) ∧
      (upload [.json, .xml]).Relisted SameTypes (upload [.xml, .json]) ∧
      (upload [.json, .xml]).contains (upload [.json, .xml]) = true ∧
      (upload [.json, .xml]).contains (upload [.xml, .json]) = false := by
  have hswapped : SameTypes [.json, .xml] [.xml, .json] := fun ct => by simp [or_comm]
  exact ⟨.refl _, relisted_upload hswapped, by decide, by decide⟩

end Route

end VerifiedLinks
