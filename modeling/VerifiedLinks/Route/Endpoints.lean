import VerifiedLinks.Route.Basic

/-!
# Endpoints

The endpoints of a route are the verbs at its leaves, each below the steps that
lead to it.  `Route.endpoints` lists them from left to right as routes without
alternatives, and `Route.count` counts them without building them.  A route
without alternatives has a method and the pattern of a path, in which a capture
is shown by its name between braces and a modifier is left out.
-/

namespace VerifiedLinks.Route

/-- The endpoints of a route, from left to right. -/
def endpoints : Route → List Route
  | alt left right => left.endpoints ++ right.endpoints
  | step s rest => rest.endpoints.map (step s)
  | verb v => [verb v]

@[simp] theorem endpoints_alt (left right : Route) :
    (alt left right).endpoints = left.endpoints ++ right.endpoints := rfl

@[simp] theorem endpoints_step (s : Step) (rest : Route) :
    (step s rest).endpoints = rest.endpoints.map (step s) := rfl

@[simp] theorem endpoints_verb (v : Verb) : (verb v).endpoints = [verb v] := rfl

/-- The number of endpoints. -/
def count : Route → Nat
  | alt left right => left.count + right.count
  | step _ rest => rest.count
  | verb _ => 1

@[simp] theorem count_alt (left right : Route) :
    (alt left right).count = left.count + right.count := rfl

@[simp] theorem count_step (s : Step) (rest : Route) : (step s rest).count = rest.count := rfl

@[simp] theorem count_verb (v : Verb) : (verb v).count = 1 := rfl

@[simp] theorem length_endpoints (r : Route) : r.endpoints.length = r.count := by
  induction r with
  | alt left right ihl ihr => simp [ihl, ihr]
  | step s rest ih => simp [ih]
  | verb v => rfl

/-- No route is without endpoints. -/
theorem count_pos (r : Route) : 0 < r.count := by
  induction r with
  | alt left right ihl ihr => simp only [count_alt]; omega
  | step s rest ih => exact ih
  | verb v => exact Nat.one_pos

/-- The method of the only endpoint, if there are no alternatives. -/
def method? : Route → Option Method
  | alt .. => none
  | step _ rest => rest.method?
  | verb v => some v.method

/-- What a step contributes to the pattern of a path. -/
def stepPattern : Step → String
  | .segment literal => "/" ++ literal
  | .capture name _ => "/\x7b" ++ name ++ "\x7d"
  | .modifier _ => ""

/-- The pattern of the path down to the first node that is no step. -/
def pathPattern : Route → String
  | step s rest => stepPattern s ++ rest.pathPattern
  | _ => ""

end VerifiedLinks.Route
