import VerifiedLinks.Proofs.Route.Offers

/-!
# Containment as an order

A route can be read as a target and as an API.  Containment between routes is
transitive (`Offers.trans`), and a route contains itself unless it has alternatives
(`Offers.refl`).  So routes without alternatives are ordered by it, in general
without being equal when each contains the other.

What they are then is *alike* (`Route.Alike`): the same route but for the names and
types of captures and for the order and the repetition of content types on offer.
The reason is that a step is either met by a step of the target or passed over.
Passing over makes the target lower than the API (`Offers.height_le`), and two
routes that contain each other have the same height.
-/

namespace VerifiedLinks

/-! ## Likeness -/

/-- The same step, but for the name and the type of a capture. -/
inductive Step.Alike : (s t : Step) → Prop
  | same (s : Step) : Alike s s
  | capture (name type name' type' : String) : Alike (capture name type) (capture name' type')

/-- The same verb, but for the order and the repetition of its content types. -/
structure Verb.Alike (v w : Verb) : Prop where
  method : v.method = w.method
  response : v.response = w.response
  contentTypes (ct : ContentType) : ct ∈ v.contentTypes ↔ ct ∈ w.contentTypes

/-- The same route, but for the names and types of captures and for the order and the
repetition of the content types of verbs. -/
inductive Route.Alike : (r r' : Route) → Prop
  | alt {left left' right right' : Route} :
      Alike left left' → Alike right right' → Alike (alt left right) (alt left' right')
  | step {s s' : Step} {r r' : Route} : s.Alike s' → Alike r r' → Alike (step s r) (step s' r')
  | verb {v v' : Verb} : v.Alike v' → Alike (verb v) (verb v')

/-- Two steps are alike exactly if each admits the other. -/
theorem Step.alike_iff_admits {s t : Step} : s.Alike t ↔ s.Admits t ∧ t.Admits s := by
  constructor
  · intro h
    cases h with
    | same => exact ⟨.same s, .same s⟩
    | capture => exact ⟨.capture .., .capture ..⟩
  · rintro ⟨hst, hts⟩
    cases hst with
    | same => exact .same s
    | segment => cases hts
    | capture => exact .capture ..

theorem Verb.alike_iff_admits {v w : Verb} : v.Alike w ↔ v.Admits w ∧ w.Admits v := by
  constructor
  · intro h
    exact ⟨⟨h.method.symm, h.response.symm, fun ct => (h.contentTypes ct).mpr⟩,
      ⟨h.method, h.response, fun ct => (h.contentTypes ct).mp⟩⟩
  · rintro ⟨hvw, hwv⟩
    exact ⟨hwv.method, hwv.response, fun ct => ⟨@hwv.contentTypes ct, @hvw.contentTypes ct⟩⟩

/-! ## Composing two matches -/

theorem Step.Admits.trans {s t u : Step} (hst : s.Admits t) (htu : t.Admits u) :
    s.Admits u := by
  cases htu with
  | same => exact hst
  | segment literal name type =>
      rw [hst.eq_segment]
      exact .segment ..
  | capture name type name' type' =>
      cases hst with
      | same => exact .capture ..
      | segment => exact .segment ..
      | capture => exact .capture ..

theorem Verb.Admits.trans {u v w : Verb} (huv : u.Admits v) (hvw : v.Admits w) :
    u.Admits w where
  method := hvw.method.trans huv.method
  response := hvw.response.trans huv.response
  contentTypes := List.Subset.trans hvw.contentTypes huv.contentTypes

namespace Route

/-- A route without alternatives offers itself. -/
theorem Offers.refl {r : Route} (h : r.AltFree) : Offers r r := by
  induction r with
  | alt left right => exact absurd h (altFree_alt left right)
  | step s rest ih => exact .step (.same s) (ih h)
  | verb v => exact .verb (.refl v)

/-- The induction is on the match of the upper two routes.  What the middle route
passes over for the lower one is a modifier, so the upper route has the same one
and passes over it as well. -/
theorem Offers.trans {c b a : Route} (hcb : Offers c b) (hba : Offers b a) : Offers c a := by
  induction hcb generalizing a with
  | left _ ih => exact .left (ih hba)
  | right _ ih => exact .right (ih hba)
  | step hs _ ih =>
      cases hba with
      | step hs' h => exact .step (hs.trans hs') (ih h)
      | pass h =>
          rw [hs.eq_modifier]
          exact .pass (ih h)
  | pass _ ih => exact .pass (ih hba)
  | verb hv =>
      cases hba with
      | verb hv' => exact .verb (hv.trans hv')

/-! ## Height -/

/-- The number of steps on the longest way down. -/
def height : Route → Nat
  | alt left right => max left.height right.height
  | step _ rest => rest.height + 1
  | verb _ => 0

/-- No target is higher than an API that offers it. -/
theorem Offers.height_le {api t : Route} (h : Offers api t) : t.height ≤ api.height := by
  induction h with
  | left _ ih => exact Nat.le_trans ih (Nat.le_max_left ..)
  | right _ ih => exact Nat.le_trans ih (Nat.le_max_right ..)
  | step _ _ ih => exact Nat.succ_le_succ ih
  | pass _ ih => exact Nat.le_succ_of_le ih
  | verb _ => exact Nat.le_refl _

/-- A route that passes over a modifier is not offered in return. -/
theorem Offers.not_offers_step {s : Step} {a t : Route} (h : Offers a t) :
    ¬ Offers t (.step s a) := by
  intro h'
  have hle := h.height_le
  have hge := h'.height_le
  simp only [height] at hge
  omega

/-! ## Routes that contain each other -/

/-- Two routes that offer each other are alike: neither can have passed over a modifier. -/
theorem Offers.alike {a b : Route} (hab : Offers a b) (hba : Offers b a) : a.Alike b := by
  induction hab with
  | left => exact absurd hba.altFree (altFree_alt _ _)
  | right => exact absurd hba.altFree (altFree_alt _ _)
  | step hs h ih =>
      cases hba with
      | step hs' h' => exact .step (Step.alike_iff_admits.mpr ⟨hs, hs'⟩) (ih h')
      | pass h' => exact absurd h' h.not_offers_step
  | pass h => exact absurd hba h.not_offers_step
  | verb hv =>
      cases hba with
      | verb hv' => exact .verb (Verb.alike_iff_admits.mpr ⟨hv, hv'⟩)

theorem Alike.offers {a b : Route} (h : a.Alike b) (ha : a.AltFree) : Offers a b := by
  induction h with
  | alt => exact absurd ha (altFree_alt _ _)
  | step hs _ ih => exact .step (Step.alike_iff_admits.mp hs).1 (ih ha)
  | verb hv => exact .verb (Verb.alike_iff_admits.mp hv).1

theorem Alike.symm {a b : Route} (h : a.Alike b) : b.Alike a := by
  induction h with
  | alt _ _ ihl ihr => exact .alt ihl ihr
  | step hs _ ih => exact .step (Step.alike_iff_admits.mpr (Step.alike_iff_admits.mp hs).symm) ih
  | verb hv => exact .verb (Verb.alike_iff_admits.mpr (Verb.alike_iff_admits.mp hv).symm)

/-- Two routes offer each other exactly if they are alike and have no alternatives. -/
theorem offers_both_iff_alike {a b : Route} :
    Offers b a ∧ Offers a b ↔ a.AltFree ∧ b.AltFree ∧ a.Alike b := by
  constructor
  · rintro ⟨hba, hab⟩
    exact ⟨hba.altFree, hab.altFree, hab.alike hba⟩
  · rintro ⟨ha, hb, h⟩
    exact ⟨h.symm.offers hb, h.offers ha⟩

/-- Containment is reflexive on routes without alternatives and nowhere else, it is
transitive, and routes that contain each other are alike. -/
theorem contains_preorder (a b c : Route) :
    (a.contains a = true ↔ a.AltFree) ∧
      (b.contains a = true → c.contains b = true → c.contains a = true) ∧
      (b.contains a = true ∧ a.contains b = true ↔ a.AltFree ∧ b.AltFree ∧ a.Alike b) := by
  simp only [contains_iff_offers]
  refine ⟨⟨fun h => h.altFree, fun h => .refl h⟩, ?_, offers_both_iff_alike⟩
  intro hba hcb
  exact hcb.trans hba

/-- A profile behind two flags, beside a deletion. -/
def profiles : Route :=
  alt (verb .delete)
    (step (.segment "users") (step (.modifier (.flag .query "new"))
      (step (.modifier (.flag .query "full")) (step (.segment "me")
        (verb { method := .get, contentTypes := [.xml, .json], response := some "User" })))))

/-- A profile of any kind of user, behind the second flag. -/
def fullProfile : Route :=
  step (.capture "kind" "Kind") (step (.modifier (.flag .query "full")) (step (.segment "me")
    (verb { method := .get, contentTypes := [.json], response := some "User" })))

/-- Whatever stands behind two segments. -/
def anyProfile : Route :=
  step (.capture "x" "X") (step (.capture "y" "Y")
    (verb { method := .get, response := some "User" }))

/-- The three routes drop different flags and put captures in different places. -/
theorem contains_preorder_profiles :
    fullProfile.contains anyProfile = true ∧ profiles.contains fullProfile = true ∧
      profiles.contains anyProfile = true := by
  have hany : fullProfile.contains anyProfile = true := by decide
  have hfull : profiles.contains fullProfile = true := by decide
  exact ⟨hany, hfull, (contains_preorder anyProfile fullProfile profiles).2.1 hany hfull⟩

end Route

end VerifiedLinks
