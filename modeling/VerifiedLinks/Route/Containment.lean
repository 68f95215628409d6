import VerifiedLinks.Route.Basic

/-!
# Containment

A *target* is a route that somebody wants to reach, and `api.contains target`
says whether an API offers it.  The two are compared from their roots.

* An alternative of the API offers what either branch offers.
* A literal of the target needs the same literal in the API.
* A capture of the target stands for any one segment, literal or captured.
* A modifier of the API is met by an equal one in the target, or else it is passed
  over.
* Two verbs agree in method and response, and every content type of the target
  is on offer.

Where none of these applies, the target is offered only if it equals the API as a
tree.
-/

namespace VerifiedLinks

/-- Every element of `xs` occurs in `ys`. -/
def isSubList {α : Type} [BEq α] (xs ys : List α) : Bool :=
  xs.all ys.contains

/-- The test looks for each element by itself, so neither order nor repetition counts. -/
theorem isSubList_iff {α : Type} [BEq α] [LawfulBEq α] {xs ys : List α} :
    isSubList xs ys = true ↔ xs ⊆ ys := by
  simp [isSubList, List.subset_def]

namespace Route

/-- The API offers the target. -/
def contains : (api target : Route) → Bool
  | alt left right, t => left.contains t || right.contains t
  | step (.segment y) a, step (.segment x) t =>
    if x = y then a.contains t else step (.segment x) t == step (.segment y) a
  | step (.segment _) a, step (.capture _ _) t => a.contains t
  | step (.capture _ _) a, step (.capture _ _) t => a.contains t
  | step (.modifier m) a, step (.modifier n) t =>
    if n = m then a.contains t else a.contains (step (.modifier n) t)
  | step (.modifier _) a, t => a.contains t
  | verb v, verb w =>
    if w.method = v.method ∧ w.response = v.response then
      isSubList w.contentTypes v.contentTypes
    else verb w == verb v
  | a, t => t == a

@[simp] theorem contains_alt {left right t : Route} :
    (alt left right).contains t = (left.contains t || right.contains t) := by
  rw [contains]

end Route

end VerifiedLinks
