import VerifiedLinks.Manifest.Basic
import VerifiedLinks.Text.Column

/-!
# Report summaries

A report is shown as one row for each target and a last line with the number of
links.  A row says whether there is a link, gives the name in a column of its own,
and then the path of the link or the reason why there is none.  A report with a
name that is too long for a column is not shown.
-/

namespace VerifiedLinks

/-- A path as it is shown: the empty one is the root. -/
def shownPath (path : String) : String :=
  if path = "" then "/" else path

/-- The end of a noun that is counted. -/
def pluralEnd (n : Nat) : String :=
  if n = 1 then "" else "s"

namespace Report

/-- The row of a target. -/
def row (width : Nat) (name : String) : Except LinkError Link → String
  | .ok link => "ok   " ++ Text.pad width name ++ "  " ++ shownPath link.path ++ "\n"
  | .error e => "err  " ++ Text.pad width name ++ "  " ++ e.message ++ "\n"

/-- The number of links. -/
def verifiedCount (r : Report) : Nat :=
  (r.outcomes.filterMap Except.toOption).size

/-- The last line. -/
def total (r : Report) : String :=
  toString r.verifiedCount ++ " of " ++ toString r.size ++ " link" ++ pluralEnd r.size ++
    " verified\n"

/-- The whole report, with names in a column of this width.  A line is left empty
between the rows and the last line. -/
def layout (r : Report) (width : Nat) : String :=
  String.join (r.outcomes.entries.map fun e => row width e.1 e.2) ++
    (if r.size = 0 then "" else "\n") ++ r.total

/-- The report as it is shown. -/
def summary (r : Report) : Except Text.ColumnTooWide String :=
  (Text.fittingWidth r.outcomes.names).map r.layout

end Report

end VerifiedLinks
