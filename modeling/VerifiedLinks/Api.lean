import VerifiedLinks.Link
import VerifiedLinks.Route.Endpoints
import VerifiedLinks.Route.Validity

/-!
# APIs

An *API* is a well-formed route, read as a description of all that a service
offers.  It is never empty, since every route ends in at least one verb.
-/

namespace VerifiedLinks

/-- A well-formed description of what a service offers. -/
structure Api where
  /-- The description. -/
  root : Route
  /-- The description was checked. -/
  wellFormed : root.WellFormed

namespace Api

/-- The API that a route describes, unless a node of the route breaks its rule. -/
def ofRoute (root : Route) : Except RouteError Api :=
  match h : root.check with
  | .ok () => .ok ⟨root, h⟩
  | .error e => .error e

/-- The API that offers every route of a list, in order.  There is none for the
empty list. -/
def ofRoutes (routes : List Route) : Except RouteError (Option Api) :=
  match Route.choice routes with
  | none => .ok none
  | some root => (ofRoute root).map some

/-- The API offers the target. -/
def contains (api : Api) (target : Route) : Bool :=
  api.root.contains target

/-- The link to a target. -/
def link (api : Api) (target : Route) : Except LinkError Link :=
  api.root.link target

/-- The endpoints, from left to right. -/
def endpoints (api : Api) : List Route :=
  api.root.endpoints

/-- The endpoints that are links as they stand. -/
def linkableEndpoints (api : Api) : List Route :=
  api.endpoints.filter Route.isLink

/-- The number of endpoints. -/
def size (api : Api) : Nat :=
  api.root.count

/-- An API always has an endpoint. -/
def isEmpty (_ : Api) : Bool :=
  false

theorem size_pos (api : Api) : 0 < api.size :=
  Route.count_pos api.root

theorem ofRoute_eq_ok_iff {root : Route} {api : Api} :
    ofRoute root = .ok api ↔ api.root = root := by
  unfold ofRoute
  split
  next h =>
    constructor
    · intro e; cases e; rfl
    · rintro rfl; rfl
  next e h =>
    constructor
    · intro h'; cases h'
    · rintro rfl
      have := api.wellFormed
      rw [Route.WellFormed, h] at this
      cases this

/-- The route is refused exactly with the error of its check. -/
theorem ofRoute_eq_error_iff {root : Route} {e : RouteError} :
    ofRoute root = .error e ↔ root.check = .error e := by
  unfold ofRoute
  split
  next h =>
    constructor
    · intro h'; cases h'
    · intro h'
      rw [h] at h'
      cases h'
  next e' h => rw [h, Except.error.injEq, Except.error.injEq]

end Api

end VerifiedLinks
