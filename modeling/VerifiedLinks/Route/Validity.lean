import VerifiedLinks.Result
import VerifiedLinks.Route.Basic

/-!
# Well-formed routes

Not every tree is a sensible description.  Each node has a rule of its own:
literal segments are single and not empty, names and types are not empty, a
`DELETE` carries no payload and every other verb names its response.
`Route.check` reports the first node that breaks its rule, parents before
children and left before right.
-/

namespace VerifiedLinks

/-- What is wrong with a node. -/
inductive RouteError where
  | emptySegment
  /-- A literal that would be read as several segments. -/
  | segmentContainsSlash (literal : String)
  | emptyName (kind : Kind)
  | emptyTypeName (kind : Kind)
  /-- A `DELETE` with content types or a response. -/
  | deleteWithPayload
  /-- A verb other than `DELETE` without a response. -/
  | missingResponse (method : Method)
deriving DecidableEq

/-- What the user is told. -/
def RouteError.message : RouteError → String
  | emptySegment => "path segment must not be empty"
  | segmentContainsSlash literal =>
    "path segment " ++ Text.quoted literal ++
      " must not contain '/'; split it into separate segments"
  | emptyName kind => kind.name ++ " name must not be empty"
  | emptyTypeName kind => kind.name ++ " type name must not be empty"
  | deleteWithPayload => "DELETE must not carry content types or a response type"
  | missingResponse method => method.name ++ " must declare a response type"

/-! ## The rule of each node -/

/-- A name is not empty. -/
def checkName (kind : Kind) (name : String) : Except RouteError Unit :=
  if name = "" then .error (.emptyName kind) else .ok ()

/-- The name of a type is not empty. -/
def checkType (kind : Kind) (type : String) : Except RouteError Unit :=
  if type = "" then .error (.emptyTypeName kind) else .ok ()

/-- A body has a type, a parameter a name and a type, and a flag a name. -/
def Modifier.check (m : Modifier) : Except RouteError Unit :=
  match m with
  | body _ type => checkType m.kind type
  | param _ _ name type => do
    checkName m.kind name
    checkType m.kind type
  | flag _ name => checkName m.kind name

/-- A literal is one segment, and a capture has a name and a type. -/
def Step.check : Step → Except RouteError Unit
  | segment literal =>
    if literal = "" then .error .emptySegment
    else if '/' ∈ literal.toList then .error (.segmentContainsSlash literal)
    else .ok ()
  | capture name type => do
    checkName .capture name
    checkType .capture type
  | modifier m => m.check

/-- Only a `DELETE` carries nothing, and it carries nothing. -/
def Verb.check (v : Verb) : Except RouteError Unit :=
  match v.method, v.response with
  | .delete, none => if v.contentTypes = [] then .ok () else .error .deleteWithPayload
  | .delete, some _ => .error .deleteWithPayload
  | method, none => .error (.missingResponse method)
  | _, some type => checkType .verb type

/-- Every node keeps its rule, or the first one that does not is reported. -/
def Route.check : Route → Except RouteError Unit
  | alt left right => do
    left.check
    right.check
  | step s rest => do
    s.check
    rest.check
  | verb v => v.check

/-- The route is well formed. -/
def Route.WellFormed (r : Route) : Prop := r.check = .ok ()

instance (r : Route) : Decidable r.WellFormed :=
  match h : r.check with
  | .ok () => isTrue h
  | .error _ => isFalse fun h' => by rw [Route.WellFormed, h] at h'; cases h'

/-! ## Well-formed trees have well-formed parts -/

namespace Route

theorem wellFormed_alt {left right : Route} :
    (alt left right).WellFormed ↔ left.WellFormed ∧ right.WellFormed :=
  seq_eq_ok

theorem wellFormed_step {s : Step} {rest : Route} :
    (step s rest).WellFormed ↔ s.check = .ok () ∧ rest.WellFormed :=
  seq_eq_ok

theorem wellFormed_verb {v : Verb} : (verb v).WellFormed ↔ v.check = .ok () := Iff.rfl

end Route

end VerifiedLinks
