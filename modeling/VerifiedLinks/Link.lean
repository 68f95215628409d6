import VerifiedLinks.Route.Containment
import VerifiedLinks.Route.Display

/-!
# Links

A *link* is the path of a target that an API offers and that is made of literal
segments and a verb only.  `Route.link` is the one way to get a link.  It asks
for containment first, so a target that fails on both counts is reported as not
contained.
-/

namespace VerifiedLinks

namespace Route

/-- The first node that keeps a route from being a link, from the root down. -/
def firstIneligible? : Route → Option Route
  | step (.segment _) rest => rest.firstIneligible?
  | verb _ => none
  | r => some r

/-- The route is made of literal segments and a verb. -/
def isLink (r : Route) : Bool :=
  r.firstIneligible?.isNone

/-- The literal segments in front, each behind a slash. -/
def literalPath : Route → String
  | step (.segment literal) rest => "/" ++ literal ++ rest.literalPath
  | _ => ""

/-- Nothing on a path of literals stands in the way of a link. -/
@[simp] theorem firstIneligible?_path (segments : List String) (v : Verb) :
    (path segments v).firstIneligible? = none := by
  induction segments with
  | nil => rfl
  | cons s segments ih => exact ih

end Route

/-- A path that was found to lead to an endpoint. -/
structure Link where
  /-- The path, which is empty for an endpoint at the root. -/
  path : String
deriving DecidableEq

/-- Why there is no link to a target. -/
inductive LinkError where
  /-- The API does not offer the target. -/
  | notContained (target : Route)
  /-- The API offers the target, but `node` is no literal segment. -/
  | notLinkable (target node : Route)
deriving DecidableEq

/-- What the user is told. -/
def LinkError.message : LinkError → String
  | notContained target => "route " ++ target.display ++ " is not an endpoint of the API"
  | notLinkable target node =>
    "route " ++ target.display ++ " cannot be a link: " ++ node.head ++
      " is not a literal path segment"

/-- The link to a target of an API. -/
def Route.link (api target : Route) : Except LinkError Link :=
  if api.contains target then
    match target.firstIneligible? with
    | some node => .error (.notLinkable target node)
    | none => .ok ⟨target.literalPath⟩
  else .error (.notContained target)

end VerifiedLinks
