import VerifiedLinks.Proofs.Link.Paths
import VerifiedLinks.Proofs.Route.Choice

/-!
# Rearranged APIs

The same endpoints can be described by many trees.  Alternatives can be grouped, ordered
and repeated in other ways, and a step in front of two branches can be written in front of
each of them.  `Route.Rearranged` is the equational theory of these laws, applied at any
place.

None of the laws touches the set of endpoints (`Rearranged.sameEndpoints`), and there are no
others to be found: trees with the same set of endpoints can be rearranged into each other
(`rearranged_iff_sameEndpoints`).  The reason is a normal form.  With all steps in front of
the verbs and all alternatives nested to the right, a tree is the choice between its endpoints
(`exists_choice_endpoints`), and in a choice each member absorbs its copies
(`rearranged_alt_of_mem`).

What an API answers is settled by the set of its endpoints.  The main statement is
`answers_eq_of_sameEndpoints`.
-/

namespace VerifiedLinks.Route

/-! ## The laws -/

/-- The trees `a` and `b` have the same endpoints, in any order and number. -/
def SameEndpoints (a b : Route) : Prop :=
  ∀ e, e ∈ a.endpoints ↔ e ∈ b.endpoints

/-- The tree `b` is a rearrangement of the tree `a`. -/
inductive Rearranged : (a b : Route) → Prop
  | refl (a : Route) : Rearranged a a
  | symm {a b : Route} : Rearranged a b → Rearranged b a
  | trans {a b c : Route} : Rearranged a b → Rearranged b c → Rearranged a c
  /-- Alternatives may be grouped in other ways. -/
  | assoc (a b c : Route) : Rearranged (alt (alt a b) c) (alt a (alt b c))
  /-- Alternatives may change places. -/
  | swap (a b : Route) : Rearranged (alt a b) (alt b a)
  /-- An alternative may be repeated. -/
  | twice (a : Route) : Rearranged (alt a a) a
  /-- A step in front of two alternatives may be written in front of each. -/
  | distribute (s : Step) (a b : Route) :
      Rearranged (step s (alt a b)) (alt (step s a) (step s b))
  | alt {a a' b b' : Route} :
      Rearranged a a' → Rearranged b b' → Rearranged (alt a b) (alt a' b')
  | step {a a' : Route} (s : Step) : Rearranged a a' → Rearranged (step s a) (step s a')

/-! ## What the laws keep -/

/-- Each law keeps the endpoints. -/
theorem Rearranged.sameEndpoints {a b : Route} (h : Rearranged a b) : SameEndpoints a b := by
  induction h with
  | refl a =>
      intro e
      exact Iff.rfl
  | symm _ ih =>
      intro e
      exact (ih e).symm
  | trans _ _ ih ih' =>
      intro e
      exact (ih e).trans (ih' e)
  | assoc a b c =>
      intro e
      simp
  | swap a b =>
      intro e
      simp [or_comm]
  | twice a =>
      intro e
      simp
  | distribute s a b =>
      intro e
      simp
  | alt _ _ ih ih' =>
      intro e
      simp [ih e, ih' e]
  | step s _ ih =>
      intro e
      simp only [endpoints_step, List.mem_map, ih _]

/-! ## Choices -/

/-- Two choices side by side are one. -/
theorem exists_choice_append {rs rs' : List Route} {c c' : Route} (h : choice rs = some c)
    (h' : choice rs' = some c') :
    ∃ d, choice (rs ++ rs') = some d ∧ Rearranged (alt c c') d := by
  rw [choice_eq_some_iff] at h
  induction h with
  | single r => exact ⟨alt r c', choice_cons h', .refl _⟩
  | @cons r rs below _ ih =>
      obtain ⟨d, hd, hsame⟩ := ih
      exact ⟨alt r d, choice_cons hd, (Rearranged.assoc r below c').trans (.alt (.refl r) hsame)⟩

/-- A step in front of a choice can be written in front of each member. -/
theorem exists_choice_map_step (s : Step) {rs : List Route} {c : Route} (h : choice rs = some c) :
    ∃ d, choice (rs.map (step s)) = some d ∧ Rearranged (step s c) d := by
  rw [choice_eq_some_iff] at h
  induction h with
  | single r => exact ⟨step s r, rfl, .refl _⟩
  | @cons r rs below _ ih =>
      obtain ⟨d, hd, hsame⟩ := ih
      exact ⟨alt (step s r) d, choice_cons hd,
        (Rearranged.distribute s r below).trans (.alt (.refl _) hsame)⟩

/-- Every tree is a choice between its endpoints. -/
theorem exists_choice_endpoints (a : Route) :
    ∃ c, choice a.endpoints = some c ∧ Rearranged a c := by
  induction a with
  | alt left right ihl ihr =>
      obtain ⟨c, hc, hleft⟩ := ihl
      obtain ⟨c', hc', hright⟩ := ihr
      obtain ⟨d, hd, hsame⟩ := exists_choice_append hc hc'
      exact ⟨d, hd, (Rearranged.alt hleft hright).trans hsame⟩
  | step s rest ih =>
      obtain ⟨c, hc, hrest⟩ := ih
      obtain ⟨d, hd, hsame⟩ := exists_choice_map_step s hc
      exact ⟨d, hd, (Rearranged.step s hrest).trans hsame⟩
  | verb v => exact ⟨verb v, rfl, .refl _⟩

/-- A choice absorbs what it holds already. -/
theorem rearranged_alt_of_mem {r c : Route} {rs : List Route} (hr : r ∈ rs)
    (h : choice rs = some c) : Rearranged (alt r c) c := by
  rw [choice_eq_some_iff] at h
  induction h with
  | single r' =>
      rw [List.mem_singleton.mp hr]
      exact .twice r'
  | @cons r' rs below _ ih =>
      have hgroup : Rearranged (alt r (alt r' below)) (alt (alt r r') below) :=
        .symm (.assoc r r' below)
      cases hr with
      | head => exact hgroup.trans (.alt (.twice r) (.refl below))
      | tail _ hr =>
          have hpast : Rearranged (alt (alt r r') below) (alt r' (alt r below)) :=
            Rearranged.trans (.alt (.swap r r') (.refl below)) (.assoc r' r below)
          exact (hgroup.trans hpast).trans (.alt (.refl r') (ih hr))

/-- A choice of members that are all there already adds nothing. -/
theorem rearranged_alt_of_subset {rs rs' : List Route} {c c' : Route} (hsub : rs ⊆ rs')
    (h : choice rs = some c) (h' : choice rs' = some c') : Rearranged (alt c c') c' := by
  rw [choice_eq_some_iff] at h
  induction h with
  | single r => exact rearranged_alt_of_mem (hsub List.mem_cons_self) h'
  | @cons r rs below _ ih =>
      obtain ⟨hr, hrs⟩ := List.cons_subset.mp hsub
      have hrest : Rearranged (alt r (alt below c')) (alt r c') := .alt (.refl r) (ih hrs)
      exact ((Rearranged.assoc r below c').trans hrest).trans (rearranged_alt_of_mem hr h')

/-- The laws lead from a tree to all trees with the same endpoints. -/
theorem rearranged_iff_sameEndpoints {a b : Route} : Rearranged a b ↔ SameEndpoints a b := by
  constructor
  · exact Rearranged.sameEndpoints
  · intro h
    obtain ⟨c, hc, hac⟩ := exists_choice_endpoints a
    obtain ⟨d, hd, hbd⟩ := exists_choice_endpoints b
    have hcd : Rearranged (alt c d) d := rearranged_alt_of_subset (fun e => (h e).mp) hc hd
    have hdc : Rearranged (alt d c) c := rearranged_alt_of_subset (fun e => (h e).mpr) hd hc
    have hsame : Rearranged c d := hdc.symm.trans ((Rearranged.swap d c).trans hcd)
    exact hac.trans (hsame.trans hbd.symm)

/-! ## What the endpoints settle -/

/-- Only the endpoints of a route decide what it offers. -/
theorem SameEndpoints.offers_iff {a b : Route} (h : SameEndpoints a b) {t : Route} :
    Offers a t ↔ Offers b t := by
  rw [offers_iff_exists_endpoint, offers_iff_exists_endpoint]
  simp only [h _]

/-- Only the endpoints of a route decide what it contains. -/
theorem SameEndpoints.contains_eq {a b : Route} (h : SameEndpoints a b) (t : Route) :
    a.contains t = b.contains t := by
  rw [Bool.eq_iff_iff, contains_iff_offers, contains_iff_offers]
  exact h.offers_iff

/-- The API has its say in a link only by containment. -/
theorem link_eq_of_contains_eq {a b t : Route} (h : a.contains t = b.contains t) :
    a.link t = b.link t := by
  rw [link, link, h]

/-- Two trees with the same endpoints give the same answer for every target: both contain
it or neither does, and there is the same link or there is none for the same reason.  These
are the trees that differ in how alternatives are grouped, ordered and repeated, and in
whether a step stands in front of alternatives or in front of each. -/
theorem answers_eq_of_sameEndpoints (a b : Route) :
    (SameEndpoints a b → ∀ t, a.contains t = b.contains t ∧ a.link t = b.link t) ∧
      (Rearranged a b → ∀ t, a.contains t = b.contains t ∧ a.link t = b.link t) ∧
      (Rearranged a b ↔ SameEndpoints a b) := by
  have hanswers (h : SameEndpoints a b) (t : Route) :
      a.contains t = b.contains t ∧ a.link t = b.link t :=
    ⟨h.contains_eq t, link_eq_of_contains_eq (h.contains_eq t)⟩
  exact ⟨hanswers, fun h => hanswers h.sameEndpoints, rearranged_iff_sameEndpoints⟩

/-- A greeting and a farewell behind one flag. -/
def sharedFlag : Route :=
  step (.modifier (.flag .query "loud")) (alt greeting (path ["bye"] .delete))

/-- The farewell is written twice, and the flag in front of each endpoint. -/
def ownFlags : Route :=
  alt (step (.modifier (.flag .query "loud")) (path ["bye"] .delete))
    (step (.modifier (.flag .query "loud")) (alt greeting (path ["bye"] .delete)))

/-- There is the same link, and of a greeting that repeats the flag the same node is
refused. -/
theorem answers_eq_sharedFlag :
    SameEndpoints sharedFlag ownFlags ∧
      sharedFlag.link greeting = .ok ⟨"/hello"⟩ ∧ ownFlags.link greeting = .ok ⟨"/hello"⟩ ∧
      ownFlags.link (step (.modifier (.flag .query "loud")) greeting) =
        sharedFlag.link (step (.modifier (.flag .query "loud")) greeting) := by
  obtain ⟨hanswers, _, hsame⟩ := answers_eq_of_sameEndpoints sharedFlag ownFlags
  have hbranches (g b : Route) : Rearranged (alt b (alt g b)) (alt g b) :=
    (Rearranged.swap _ _).trans ((Rearranged.assoc g b b).trans (.alt (.refl g) (.twice b)))
  have hrearranged : Rearranged sharedFlag ownFlags :=
    .symm ((Rearranged.distribute _ _ _).symm.trans (.step _ (hbranches _ _)))
  have hendpoints : SameEndpoints sharedFlag ownFlags := hsame.mp hrearranged
  have hlink : sharedFlag.link greeting = .ok ⟨"/hello"⟩ := rfl
  exact ⟨hendpoints, hlink, (hanswers hendpoints greeting).2 ▸ hlink,
    (hanswers hendpoints _).2.symm⟩

end VerifiedLinks.Route
