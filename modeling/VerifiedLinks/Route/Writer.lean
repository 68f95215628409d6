import VerifiedLinks.Json.Value
import VerifiedLinks.Route.Basic

/-!
# Writing routes

A node is written as an object with its kind first and then its fields in order.
A verb leaves out its content types if it has none, and its response if it names
none.  A content type is written as its media type.
-/

namespace VerifiedLinks

open Json (Value)

/-- A list of content types. -/
def ContentType.listValue (cts : List ContentType) : Value :=
  .array (cts.map fun ct => .text ct.mediaType)

/-- The fields of a verb. -/
def Verb.members (v : Verb) : List (String × Value) :=
  ("method", .text v.method.name) ::
    ((if v.contentTypes = [] then []
      else [("content_types", ContentType.listValue v.contentTypes)]) ++
    match v.response with
    | none => []
    | some type => [("response", .text type)])

/-- The fields of a modifier, without its child. -/
def Modifier.members : Modifier → List (String × Value)
  | body cts type => [("content_types", ContentType.listValue cts), ("type", .text type)]
  | param _ _ name type => [("name", .text name), ("type", .text type)]
  | flag _ name => [("name", .text name)]

/-- The fields of a step, without its child. -/
def Step.members : Step → List (String × Value)
  | segment literal => [("literal", .text literal)]
  | capture name type => [("name", .text name), ("type", .text type)]
  | modifier m => m.members

/-- The value that a route is written as. -/
def Route.toValue : Route → Value
  | alt left right =>
    .object [("kind", .text Kind.alt.name), ("left", left.toValue), ("right", right.toValue)]
  | step s rest => .object (("kind", .text s.kind.name) :: s.members ++ [("rest", rest.toValue)])
  | verb v => .object (("kind", .text Kind.verb.name) :: v.members)

/-- The text that a route is written as. -/
def Route.toText (r : Route) : String :=
  r.toValue.write

end VerifiedLinks
