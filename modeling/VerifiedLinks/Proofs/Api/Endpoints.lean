import Mathlib.Data.List.Basic
import VerifiedLinks.Proofs.Api.Members
import VerifiedLinks.Proofs.Route.Leaves

/-!
# Endpoints of APIs

The endpoints of an API are a normal form of it.  There is one for each leaf of the
description, from left to right, and it is the chain of all that stands on the way to the leaf
but the alternatives.  An endpoint is its own only endpoint (`Route.flatMap_endpoints`).  So
the API that offers the endpoints of another one, in order, has the same endpoints
(`Api.exists_ofRoutes_endpoints`).

There is such an API because endpoints of a well-formed description are well formed, and there
is at least one.  The main statement is `Api.endpoints_normalForm`.
-/

namespace VerifiedLinks

/-- Endpoints have no endpoints but themselves. -/
theorem Route.flatMap_endpoints (r : Route) : r.endpoints.flatMap endpoints = r.endpoints := by
  have hself : ∀ e ∈ r.endpoints, e.endpoints = [e] :=
    fun e he => endpoints_of_altFree (altFree_of_mem_endpoints he)
  rw [List.flatMap_congr hself, List.flatMap_singleton']

namespace Api

theorem length_endpoints (api : Api) : api.endpoints.length = api.size :=
  api.root.length_endpoints

/-- No API is without endpoints. -/
theorem endpoints_ne_nil (api : Api) : api.endpoints ≠ [] := by
  intro hnil
  have hsize := api.length_endpoints
  rw [hnil, List.length_nil] at hsize
  exact absurd hsize.symm (Nat.ne_of_gt api.size_pos)

/-- There is an API that offers the endpoints of another one, in order, and nothing else. -/
theorem exists_ofRoutes_endpoints (api : Api) :
    ∃ api', ofRoutes api.endpoints = .ok (some api') ∧ api'.endpoints = api.endpoints := by
  obtain ⟨e, es, hcons⟩ := List.exists_cons_of_ne_nil api.endpoints_ne_nil
  obtain ⟨root, hroot⟩ := Route.exists_choice_eq e es
  rw [← hcons] at hroot
  have hwell : root.WellFormed :=
    (Route.wellFormed_choice_iff hroot).mpr (Route.wellFormed_iff_endpoints.mp api.wellFormed)
  have hmembers : ofRoutes api.endpoints = .ok (some ⟨root, hwell⟩) :=
    ofRoutes_eq_ok_some_iff.mpr hroot
  refine ⟨_, hmembers, ?_⟩
  rw [endpoints_ofRoutes hmembers]
  exact api.root.flatMap_endpoints

/-- The endpoints of an API are what its leaves amount to, each leaf once and from left to
right.  They have no alternatives and are their own endpoints, the size of the API is their
number, and there is at least one.  Put side by side they make an API with the same
endpoints. -/
theorem endpoints_normalForm (api : Api) :
    (∃ leaves : List (Route.Leaf api.root),
      leaves.Pairwise Route.Leaf.LeftOf ∧ leaves.Nodup ∧ (∀ a, a ∈ leaves) ∧
        api.endpoints = leaves.map Route.Leaf.endpoint) ∧
    (∀ e ∈ api.endpoints, e.AltFree ∧ e.endpoints = [e]) ∧
    api.size = api.endpoints.length ∧ 1 ≤ api.size ∧
    (api.isEmpty = true ↔ api.endpoints = []) ∧ api.isEmpty = false ∧
    ∃ api', ofRoutes api.endpoints = .ok (some api') ∧ api'.endpoints = api.endpoints := by
  refine ⟨⟨api.root.leaves, api.root.leaves_ascending, api.root.leaves_nodup, Route.mem_leaves,
    api.root.endpoints_eq_map_leaves⟩, fun e he => ?_, api.length_endpoints.symm, api.size_pos,
    ?_, rfl, api.exists_ofRoutes_endpoints⟩
  · have hfree : e.AltFree := Route.altFree_of_mem_endpoints he
    exact ⟨hfree, Route.endpoints_of_altFree hfree⟩
  · exact ⟨nofun, fun hnil => absurd hnil api.endpoints_ne_nil⟩

/-- A shop with alternatives at two depths.  The last two endpoints share a segment and a
flag. -/
def shop : Api where
  root := .step (.segment "shop") (.alt
    (.step (.capture "item" "Id") (.verb .delete))
    (.step (.modifier (.flag .query "all"))
      (.alt (.path ["carts"] .delete) (.path ["bills"] .delete))))
  wellFormed := by decide

/-- The flag stands in front of both endpoints that share it, and each endpoint is as it is when
it is looked at alone. -/
theorem endpoints_normalForm_shop :
    let bills := Route.step (.segment "shop") (.step (.modifier (.flag .query "all"))
      (.path ["bills"] .delete))
    bills ∈ shop.endpoints ∧ bills.AltFree ∧ bills.endpoints = [bills] ∧ shop.size = 3 ∧
      ∃ api, ofRoutes shop.endpoints = .ok (some api) ∧ api.endpoints = shop.endpoints := by
  intro bills
  obtain ⟨_, hself, _, _, _, _, hside⟩ := endpoints_normalForm shop
  have hbills : bills ∈ shop.endpoints := by decide
  obtain ⟨hfree, hendpoints⟩ := hself bills hbills
  exact ⟨hbills, hfree, hendpoints, rfl, hside⟩

end Api

end VerifiedLinks
