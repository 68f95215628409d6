import Mathlib.Data.List.Forall2
import VerifiedLinks.Proofs.Route.Offers

/-!
# Containment as thinning

What it means to be offered by an API can be said without a search.  An endpoint
is a list of steps with a verb behind it.  It *yields* the targets that can be
made from it in three moves (`Route.Yields`).

* Leave out some of the modifiers (`Thinned`).
* Put captures in the places of some segments and captures, and keep the other
  steps as they are (`Step.Admits`, place by place).
* Exchange the verb for one that asks for the same method and response, and for
  no content type that is not on offer (`Verb.Admits`).

The main statement, `contains_iff_exists_yields`, is that an API contains exactly
the targets that one of its endpoints yields, whichever modifiers are left out.
-/

namespace VerifiedLinks

/-! ## Leaving out modifiers -/

/-- The steps `kept` remain of the steps `ss` when some modifiers are left out. -/
inductive Thinned : (ss kept : List Step) → Prop
  | nil : Thinned [] []
  | keep {ss kept : List Step} (s : Step) : Thinned ss kept → Thinned (s :: ss) (s :: kept)
  | drop {ss kept : List Step} (m : Modifier) : Thinned ss kept → Thinned (.modifier m :: ss) kept

namespace Route

/-- The target `t` can be made from the endpoint `e`. -/
def Yields (e t : Route) : Prop :=
  ∃ ss v kept ts w, e = chain ss v ∧ t = chain ts w ∧
    Thinned ss kept ∧ List.Forall₂ Step.Admits kept ts ∧ v.Admits w

/-! ## The moves and the rules -/

/-- Modifiers may be left out, and the steps that are kept have to admit those of the target. -/
theorem Offers.of_thinned {ss kept ts : List Step} {v w : Verb} (hss : Thinned ss kept)
    (hts : List.Forall₂ Step.Admits kept ts) (hv : v.Admits w) :
    Offers (chain ss v) (chain ts w) := by
  induction hss generalizing ts with
  | nil =>
      cases hts with
      | nil => exact .verb hv
  | keep s _ ih =>
      cases hts with
      | cons hs hts => exact .step hs (ih hts)
  | drop m _ ih => exact .pass (ih hts)

/-- Whatever a chain offers, it offers by leaving out modifiers. -/
theorem Offers.exists_thinned {ss : List Step} {v : Verb} {t : Route}
    (h : Offers (chain ss v) t) :
    ∃ kept ts w, t = chain ts w ∧ Thinned ss kept ∧ List.Forall₂ Step.Admits kept ts ∧
      v.Admits w := by
  induction ss generalizing t with
  | nil =>
      cases h with
      | @verb _ w hw => exact ⟨[], [], w, rfl, .nil, .nil, hw⟩
  | cons s ss ih =>
      cases h with
      | @step _ s' _ t hs h =>
          obtain ⟨kept, ts, w, rfl, hss, hts, hw⟩ := ih h
          exact ⟨s :: kept, s' :: ts, w, rfl, .keep s hss, .cons hs hts, hw⟩
      | @pass m _ _ h =>
          obtain ⟨kept, ts, w, rfl, hss, hts, hw⟩ := ih h
          exact ⟨kept, ts, w, rfl, .drop m hss, hts, hw⟩

/-- The rules, applied to a route without alternatives, are the three moves. -/
theorem offers_iff_yields {e t : Route} (he : e.AltFree) : Offers e t ↔ e.Yields t := by
  constructor
  · intro h
    obtain ⟨ss, v, rfl⟩ := altFree_iff_exists_chain.mp he
    obtain ⟨kept, ts, w, ht, hss, hts, hw⟩ := h.exists_thinned
    exact ⟨ss, v, kept, ts, w, rfl, ht, hss, hts, hw⟩
  · rintro ⟨ss, v, kept, ts, w, rfl, rfl, hss, hts, hw⟩
    exact .of_thinned hss hts hw

/-- A route offers what one of its endpoints yields. -/
theorem offers_iff_exists_yields {api t : Route} :
    Offers api t ↔ ∃ e ∈ api.endpoints, e.Yields t := by
  rw [offers_iff_exists_endpoint]
  constructor
  · rintro ⟨e, he, h⟩
    exact ⟨e, he, (offers_iff_yields (altFree_of_mem_endpoints he)).mp h⟩
  · rintro ⟨e, he, h⟩
    exact ⟨e, he, (offers_iff_yields (altFree_of_mem_endpoints he)).mpr h⟩

/-! ## The search and the moves -/

/-- Where a modifier can be met, meeting it finds all that passing over it would find. -/
theorem contains_same_modifier (m : Modifier) (a t : Route) :
    (step (.modifier m) a).contains (step (.modifier m) t) =
      (a.contains t || a.contains (step (.modifier m) t)) := by
  rw [Bool.eq_iff_iff, Bool.or_eq_true, contains_iff_offers, contains_iff_offers,
    contains_iff_offers]
  constructor
  · intro h
    cases h with
    | step _ h => exact Or.inl h
    | pass h => exact Or.inr h
  · rintro (h | h)
    · exact .step (.same _) h
    · exact .pass h

/-- An API contains a target exactly if the target has no alternatives and one of
the endpoints yields it.  Of the modifiers to leave out any choice may do, and the
search, which meets a modifier wherever it can, loses nothing against a search that
tries to pass over it as well. -/
theorem contains_iff_exists_yields (api t : Route) :
    (api.contains t = true ↔ t.AltFree ∧ ∃ e ∈ api.endpoints, e.Yields t) ∧
      ∀ m, (step (.modifier m) api).contains (step (.modifier m) t) =
        (api.contains t || api.contains (step (.modifier m) t)) := by
  refine ⟨?_, fun m => contains_same_modifier m api t⟩
  rw [contains_iff_offers]
  constructor
  · intro h
    exact ⟨h.altFree, offers_iff_exists_yields.mp h⟩
  · rintro ⟨_, h⟩
    exact offers_iff_exists_yields.mpr h

/-- Of two flags that are the same the second one is met, if the target begins with
the flag between them. -/
example :
    (step (.modifier (.flag .query "a")) (step (.modifier (.flag .query "b"))
      (alt (step (.modifier (.flag .query "a")) (verb .delete)) (verb .delete)))).contains
      (step (.modifier (.flag .query "b"))
        (step (.modifier (.flag .query "a")) (verb .delete))) = true := by
  decide

end Route

end VerifiedLinks
