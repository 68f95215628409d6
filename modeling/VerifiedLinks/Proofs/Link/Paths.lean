import VerifiedLinks.Link
import VerifiedLinks.Proofs.Route.Offers

/-!
# Paths of links

A link promises that its path leads to an endpoint.  The endpoint need not be the
target of the link: it may have modifiers, which the target leaves out, and it may
offer more content types.  But literals of a target meet the same literals only, so
the endpoint has no captures and its pattern is the path of the link
(`Offers.captureFree`, `Offers.pathPattern_eq`).

In the other direction an endpoint without captures is the endpoint of a link.  The
target is the endpoint itself without its modifiers (`Route.bare`).

The main statement is `exists_link_iff_exists_endpoint`: the paths of the links into
an API are the patterns of its endpoints without captures.
-/

namespace VerifiedLinks.Route

/-! ## Links of an API -/

/-- A link is made of a target that is contained and in whose path are only literals. -/
theorem link_eq_ok_iff {api t : Route} {l : Link} :
    api.link t = .ok l ↔
      api.contains t = true ∧ t.firstIneligible? = none ∧ l = ⟨t.literalPath⟩ := by
  unfold link
  by_cases hc : api.contains t = true
  · rw [if_pos hc]
    cases hf : t.firstIneligible? with
    | none => simp [hc, eq_comm]
    | some node => simp
  · simp [hc]

/-! ## Endpoints without captures -/

/-- No node of the route is a capture. -/
def CaptureFree : Route → Prop
  | alt left right => left.CaptureFree ∧ right.CaptureFree
  | step (.capture _ _) _ => False
  | step _ rest => rest.CaptureFree
  | verb _ => True

/-- The verb of the only endpoint, if there are no alternatives. -/
def verb? : Route → Option Verb
  | alt .. => none
  | step _ rest => rest.verb?
  | verb v => some v

/-- The route without its modifiers. -/
def bare : Route → Route
  | alt left right => alt left.bare right.bare
  | step (.modifier _) rest => rest.bare
  | step s rest => step s rest.bare
  | verb v => verb v

/-! ## From a link to an endpoint -/

section

variable {e t : Route}

/-- What offers literal segments and a verb has no captures, unless it has
alternatives. -/
theorem Offers.captureFree (h : Offers e t) (he : e.AltFree)
    (ht : t.firstIneligible? = none) : e.CaptureFree := by
  induction h with
  | left => exact absurd he (altFree_alt _ _)
  | right => exact absurd he (altFree_alt _ _)
  | @step s s' _ _ hs _ ih =>
      cases s' with
      | segment literal =>
          rw [hs.eq_segment]
          exact ih he ht
      | capture name type => cases ht
      | modifier m => cases ht
  | pass _ ih => exact ih he ht
  | verb _ => exact trivial

/-- Literals are met one by one, and modifiers do not show in a pattern. -/
theorem Offers.pathPattern_eq (h : Offers e t) (he : e.AltFree)
    (ht : t.firstIneligible? = none) : e.pathPattern = t.literalPath := by
  induction h with
  | left => exact absurd he (altFree_alt _ _)
  | right => exact absurd he (altFree_alt _ _)
  | @step s s' _ _ hs _ ih =>
      cases s' with
      | segment literal =>
          rw [hs.eq_segment, pathPattern, literalPath, ih he ht, stepPattern]
      | capture name type => cases ht
      | modifier m => cases ht
  | pass _ ih => rw [pathPattern, stepPattern, String.empty_append, ih he ht]
  | verb _ => rfl

/-- The endpoint and the target end in verbs, and one admits the other. -/
theorem Offers.exists_verb (h : Offers e t) (he : e.AltFree) :
    ∃ v w, e.verb? = some v ∧ t.verb? = some w ∧ v.Admits w := by
  induction h with
  | left => exact absurd he (altFree_alt _ _)
  | right => exact absurd he (altFree_alt _ _)
  | step _ _ ih => exact ih he
  | pass _ ih => exact ih he
  | @verb v w hv => exact ⟨v, w, rfl, rfl, hv⟩

/-! ## From an endpoint to a link -/

/-- An endpoint offers itself without its modifiers. -/
theorem offers_bare (he : e.AltFree) : Offers e e.bare := by
  induction e with
  | alt left right => exact absurd he (altFree_alt _ _)
  | step s rest ih =>
      cases s with
      | segment literal => exact .step (.same _) (ih he)
      | capture name type => exact .step (.same _) (ih he)
      | modifier m => exact .pass (ih he)
  | verb v => exact .verb (.refl v)

/-- Without captures and modifiers, only literals are left. -/
theorem firstIneligible?_bare (he : e.AltFree) (hc : e.CaptureFree) :
    e.bare.firstIneligible? = none := by
  induction e with
  | alt left right => exact absurd he (altFree_alt _ _)
  | step s rest ih =>
      cases s with
      | segment literal => exact ih he hc
      | capture name type => exact absurd hc id
      | modifier m => exact ih he hc
  | verb v => rfl

end

/-! ## Links and endpoints of an API -/

/-- The endpoint that a link leads to. -/
theorem exists_endpoint_of_link {api t : Route} {l : Link} (h : api.link t = .ok l) :
    ∃ e ∈ api.endpoints, e.CaptureFree ∧ e.pathPattern = l.path ∧
      ∃ v w, e.verb? = some v ∧ t.verb? = some w ∧ v.Admits w := by
  obtain ⟨hc, ht, rfl⟩ := link_eq_ok_iff.mp h
  obtain ⟨e, he, ho⟩ := offers_iff_exists_endpoint.mp (contains_iff_offers.mp hc)
  have hfree : e.AltFree := altFree_of_mem_endpoints he
  exact ⟨e, he, ho.captureFree hfree ht, ho.pathPattern_eq hfree ht, ho.exists_verb hfree⟩

/-- The link that leads to an endpoint. -/
theorem link_bare {api e : Route} (he : e ∈ api.endpoints) (hc : e.CaptureFree) :
    api.link e.bare = .ok ⟨e.pathPattern⟩ := by
  have hfree : e.AltFree := altFree_of_mem_endpoints he
  have ht : e.bare.firstIneligible? = none := firstIneligible?_bare hfree hc
  have hoffers : Offers api e.bare := offers_iff_exists_endpoint.mpr ⟨e, he, offers_bare hfree⟩
  rw [link_eq_ok_iff, (offers_bare hfree).pathPattern_eq hfree ht]
  exact ⟨hoffers.contains, ht, rfl⟩

/-- A path belongs to a link into an API exactly if it is the pattern of an endpoint
without captures.  Such an endpoint can be found for each link, with a verb that admits
the verb of the target. -/
theorem exists_link_iff_exists_endpoint (api : Route) :
    (∀ p, (∃ t l, api.link t = .ok l ∧ l.path = p) ↔
        ∃ e ∈ api.endpoints, e.CaptureFree ∧ e.pathPattern = p) ∧
      ∀ t l, api.link t = .ok l →
        ∃ e ∈ api.endpoints, e.CaptureFree ∧ e.pathPattern = l.path ∧
          ∃ v w, e.verb? = some v ∧ t.verb? = some w ∧ v.Admits w := by
  refine ⟨fun p => ⟨?_, ?_⟩, fun t l h => exists_endpoint_of_link h⟩
  · rintro ⟨t, l, h, rfl⟩
    obtain ⟨e, he, hc, hp, _⟩ := exists_endpoint_of_link h
    exact ⟨e, he, hc, hp⟩
  · rintro ⟨e, he, hc, rfl⟩
    exact ⟨e.bare, _, link_bare he hc, rfl⟩

/-- An API that greets, and loudly if it is asked to. -/
def greetings (cts : List ContentType) : Route :=
  step (.segment "hello") (step (.modifier (.flag .query "loud"))
    (verb { method := .get, contentTypes := cts, response := some "Text" }))

/-- A greeting in JSON, whether it is loud or not. -/
def greeting : Route :=
  path ["hello"] { method := .get, contentTypes := [.json], response := some "Text" }

/-- The endpoint behind a link, with the types of the response in another order. -/
theorem exists_endpoint_greetings :
    (greetings [.xml, .json]).link greeting = .ok ⟨"/hello"⟩ ∧
      ∃ e ∈ (greetings [.xml, .json]).endpoints, e.CaptureFree ∧ e.pathPattern = "/hello" ∧
        ∃ v w, e.verb? = some v ∧ greeting.verb? = some w ∧ v.Admits w := by
  have h : (greetings [.xml, .json]).link greeting = .ok ⟨"/hello"⟩ := rfl
  exact ⟨h, (exists_link_iff_exists_endpoint (greetings [.xml, .json])).2 greeting ⟨"/hello"⟩ h⟩

end VerifiedLinks.Route
