import VerifiedLinks.Api
import VerifiedLinks.Report.Summary

/-!
# Endpoint listings

The endpoints of an API are shown below a header, one row for each.  A row marks
the endpoints that are links, and gives the method, the pattern of the path and
the whole endpoint, the first three in columns of their own.  An API with a path
that is too long for a column is not shown.
-/

namespace VerifiedLinks

namespace Route

/-- The mark of an endpoint that is a link. -/
def linkMark (r : Route) : String :=
  if r.isLink then "link" else "    "

/-- The name of the method of an endpoint. -/
def shownMethod (r : Route) : String :=
  match r.method? with
  | some m => m.name
  | none => ""

/-- The row of an endpoint. -/
def listingRow (pathWidth : Nat) (r : Route) : String :=
  "  " ++ r.linkMark ++ "  " ++ Text.pad 6 r.shownMethod ++ "  " ++
    Text.pad pathWidth (shownPath r.pathPattern) ++ "  " ++ r.display ++ "\n"

end Route

namespace Api

/-- The first line of a listing. -/
def listingHeader (api : Api) : String :=
  "API  " ++ toString api.endpoints.length ++ " endpoint" ++ pluralEnd api.endpoints.length

/-- The cells of the column of paths. -/
def shownPaths (api : Api) : List String :=
  api.endpoints.map fun r => shownPath r.pathPattern

/-- All endpoints below a header that is underlined, with paths in a column of this
width. -/
def layout (api : Api) (pathWidth : Nat) : String :=
  api.listingHeader ++ "\n" ++
    String.ofList (List.replicate api.listingHeader.length '─') ++ "\n" ++
    String.join (api.endpoints.map (Route.listingRow pathWidth))

/-- The endpoints as they are shown. -/
def listing (api : Api) : Except Text.ColumnTooWide String :=
  (Text.fittingWidth api.shownPaths).map api.layout

end Api

end VerifiedLinks
