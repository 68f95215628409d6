import Mathlib.Data.List.Forall2
import VerifiedLinks.Proofs.Link.Segments
import VerifiedLinks.Proofs.Manifest.Outcomes
import VerifiedLinks.Proofs.Report.Columns

/-!
# Columns that line up

The width of a column is the size of its longest cell in bytes, and a cell is filled up with
spaces by the number of its characters.  These are two measures, but no text has more characters
than bytes (`Text.length_le_columnWidth`).  So no cell is longer than its column, and in all rows of
a report, or of a listing, each column begins behind the same number of characters
(`Report.Aligned`, `Api.Aligned`).  Blanks stand between the columns, and the last one goes to the
end of the row, so there is room for nothing else (`Report.RowAligned`, `Api.RowAligned`).

The first number in the last line of a report is that of the rows with the mark of a link, and the
marks stand in a column too (`Report.map_cell_eq`).  It is the second number exactly if the report
is without failures.

No column is wider than `Text.maxColumnWidth`.  A report with a longer name is not shown, although
all its links may be verified (`Report.summary_longestName`).  The main statement is
`columns_lineUp`.
-/

namespace VerifiedLinks

/-! ## The last column -/

namespace Text

/-- What stands in a row from the column on that begins at `start`. -/
def behind (start : Nat) (row : String) : String :=
  String.ofList (row.toList.drop start)

/-- What stands in front of the column does not show. -/
theorem behind_append {start : Nat} {front row : String} (h : front.length = start) :
    behind start (front ++ row) = row := by
  rw [← String.length_toList] at h
  rw [behind, String.toList_append, List.drop_left' h, String.ofList_toList]

end Text

/-! ## Reports -/

namespace Report

/-- The mark at the front of a row. -/
def mark : Except LinkError Link → String
  | .ok _ => "ok   "
  | .error _ => "err  "

/-- What a row says of a target behind its name: the path of the link or why there is none. -/
def finding : Except LinkError Link → String
  | .ok link => shownPath link.path
  | .error e => e.message

/-- A row is a mark, the name in its column, two blanks and the finding. -/
theorem row_eq (width : Nat) (name : String) (o : Except LinkError Link) :
    row width name o = mark o ++ Text.pad width name ++ "  " ++ finding o ++ "\n" := by
  cases o with
  | ok link => rfl
  | error e => rfl

@[simp] theorem length_mark (o : Except LinkError Link) : (mark o).length = 5 := by
  cases o with
  | ok link =>
      show "ok   ".length = 5
      rfl
  | error e =>
      show "err  ".length = 5
      rfl

/-- The mark tells whether there is a link. -/
theorem mark_eq_iff {o : Except LinkError Link} : mark o = "ok   " ↔ ∃ l, o = .ok l := by
  cases o with
  | ok link => exact iff_of_true rfl ⟨link, rfl⟩
  | error e =>
      have hmark : "err  " ≠ "ok   " := by decide
      exact iff_of_false hmark (by simp)

/-- The mark, the name and the finding of an entry stand in their columns of a row. -/
structure RowAligned (width : Nat) (e : String × Except LinkError Link) (row : String) : Prop where
  mark : Text.cell 0 5 row = mark e.2
  /-- The name is not longer than its column. -/
  length_name : e.1.length ≤ width
  name : Text.cell 5 width row = Text.pad width e.1
  /-- Two blanks stand behind the name. -/
  blank : Text.cell (5 + width) 2 row = "  "
  /-- The finding is the last column. -/
  finding : Text.behind (7 + width) row = finding e.2 ++ "\n"

/-- The row of an outcome keeps to the columns if the name fits into its own. -/
theorem rowAligned_row {width : Nat} {e : String × Except LinkError Link}
    (h : e.1.length ≤ width) : RowAligned width e (row width e.1 e.2) := by
  have hmark := length_mark e.2
  have hname := Text.length_pad h
  have hblank : "  ".length = 2 := rfl
  rw [row_eq]
  refine ⟨?_, h, ?_, ?_, ?_⟩
  · simp only [String.append_assoc]
    exact Text.cell_zero_append hmark
  · simp only [String.append_assoc]
    rw [Text.cell_append (Nat.le_of_eq hmark), hmark, Text.cell_zero_append hname]
  · simp [String.append_assoc, Text.cell_append, Text.cell_zero_append, hmark, hname, hblank]
  · rw [String.append_assoc]
    refine Text.behind_append ?_
    rw [String.length_append, String.length_append, hmark, hname, hblank]
    omega

/-- The number of rows with the mark of a link. -/
def linkedRows (rows : List String) : Nat :=
  (rows.map (Text.cell 0 5)).count "ok   "

section

variable {r : Report} {width : Nat} {rows : List String}

/-- Whatever else stands in the rows, their marks are those of the outcomes. -/
theorem map_cell_eq (h : List.Forall₂ (RowAligned width) r.outcomes.entries rows) :
    rows.map (Text.cell 0 5) = r.outcomes.entries.map fun e => mark e.2 := by
  rw [← List.forall₂_eq_eq_eq, List.forall₂_map_left_iff, List.forall₂_map_right_iff]
  exact (h.imp fun _ _ hrow => hrow.mark).flip

/-- The rows with the mark of a link are as many as the links that are counted. -/
theorem linkedRows_eq (h : List.Forall₂ (RowAligned width) r.outcomes.entries rows) :
    linkedRows rows = r.verifiedCount := by
  rw [linkedRows, map_cell_eq h, verifiedCount, NameMap.size, NameMap.filterMap,
    List.length_filterMap_eq_countP, List.count_eq_countP, List.countP_map]
  refine List.countP_congr fun e _ => ?_
  obtain ⟨name, o⟩ := e
  cases o with
  | ok link => simp [mark, Except.toOption]
  | error e => simp [mark, Except.toOption]

/-- All rows have that mark exactly if the report is one of successes only. -/
theorem linkedRows_eq_length_iff
    (h : List.Forall₂ (RowAligned width) r.outcomes.entries rows) :
    linkedRows rows = rows.length ↔ r.isOk = true := by
  have hlength : rows.length = (rows.map (Text.cell 0 5)).length := (List.length_map _).symm
  rw [hlength, linkedRows, List.count_eq_length, map_cell_eq h, List.forall_mem_map, isOk_iff]
  simp only [eq_comm (a := "ok   "), mark_eq_iff]

end

/-- The text has an aligned row for each outcome, in order, all with names in a column of the same
width.  Then comes an empty line, if there are rows, and then the number of rows with the mark of
a link and the number of all rows, which are the same exactly if the report is without failures. -/
def Aligned (r : Report) (text : String) : Prop :=
  ∃ width rows,
    text = String.join rows ++ (if rows.length = 0 then "" else "\n") ++
      (toString (linkedRows rows) ++ " of " ++ toString rows.length ++ " link" ++
        pluralEnd rows.length ++ " verified\n") ∧
    List.Forall₂ (RowAligned width) r.outcomes.entries rows ∧
    (linkedRows rows = rows.length ↔ r.isOk = true)

theorem aligned_layout (r : Report) : r.Aligned (r.layout (Text.columnWidth r.outcomes.names)) := by
  have hrows : List.Forall₂ (RowAligned (Text.columnWidth r.outcomes.names)) r.outcomes.entries
      (r.outcomes.entries.map fun e => row (Text.columnWidth r.outcomes.names) e.1 e.2) := by
    rw [List.forall₂_map_right_iff, List.forall₂_same]
    intro e he
    exact rowAligned_row (Text.length_le_columnWidth (List.mem_map_of_mem he))
  have hsize : r.size = (r.outcomes.entries.map fun e =>
      row (Text.columnWidth r.outcomes.names) e.1 e.2).length := (List.length_map _).symm
  refine ⟨_, _, ?_, hrows, linkedRows_eq_length_iff hrows⟩
  rw [layout, total, linkedRows_eq hrows, ← hsize]

end Report

/-! ## Listings -/

namespace Route

theorem length_linkMark (r : Route) : r.linkMark.length = 4 := by
  rw [linkMark]
  split
  · rfl
  · rfl

theorem length_shownMethod_le (r : Route) : r.shownMethod.length ≤ 6 := by
  rw [shownMethod]
  split
  next m _ => cases m <;> decide
  next => decide

end Route

namespace Api

/-- The mark, the method, the path and the whole endpoint stand in their columns of a row. -/
structure RowAligned (pathWidth : Nat) (e : Route) (row : String) : Prop where
  mark : Text.cell 2 4 row = e.linkMark
  /-- The method is not longer than its column. -/
  length_method : e.shownMethod.length ≤ 6
  method : Text.cell 8 6 row = Text.pad 6 e.shownMethod
  /-- The path is not longer than its column. -/
  length_path : (shownPath e.pathPattern).length ≤ pathWidth
  path : Text.cell 16 pathWidth row = Text.pad pathWidth (shownPath e.pathPattern)
  /-- Two blanks stand in front of each column. -/
  blanks : ∀ start ∈ [0, 6, 14, 16 + pathWidth], Text.cell start 2 row = "  "
  /-- The endpoint is the last column. -/
  route : Text.behind (18 + pathWidth) row = e.display ++ "\n"

/-- The row of an endpoint keeps to the columns if the path fits into its own. -/
theorem rowAligned_listingRow {pathWidth : Nat} {e : Route}
    (h : (shownPath e.pathPattern).length ≤ pathWidth) :
    RowAligned pathWidth e (e.listingRow pathWidth) := by
  have hmark := e.length_linkMark
  have hmethod := Text.length_pad e.length_shownMethod_le
  have hpath := Text.length_pad h
  have hblank : "  ".length = 2 := rfl
  let front := "  " ++ e.linkMark ++ "  " ++ Text.pad 6 e.shownMethod ++ "  " ++
    Text.pad pathWidth (shownPath e.pathPattern)
  have hfront : front.length = 16 + pathWidth := by
    simp only [front, String.length_append, hblank, hmark, hmethod, hpath]
  have hrow : e.listingRow pathWidth = front ++ "  " ++ (e.display ++ "\n") :=
    String.append_assoc
  rw [hrow]
  refine ⟨?_, e.length_shownMethod_le, ?_, h, ?_, fun start hstart => ?_, ?_⟩
  -- Each cell is behind others of known widths, so only these are counted.
  · simp [front, String.append_assoc, Text.cell_append, Text.cell_zero_append, hblank, hmark]
  · simp [front, String.append_assoc, Text.cell_append, Text.cell_zero_append, hblank, hmark,
      hmethod]
  · simp [front, String.append_assoc, Text.cell_append, Text.cell_zero_append, hblank, hmark,
      hmethod, hpath]
  · rw [List.mem_cons, List.mem_cons, List.mem_cons, List.mem_singleton] at hstart
    obtain rfl | rfl | rfl | rfl := hstart
    · simp [front, String.append_assoc, Text.cell_zero_append, hblank]
    · simp [front, String.append_assoc, Text.cell_append, Text.cell_zero_append, hblank, hmark]
    · simp [front, String.append_assoc, Text.cell_append, Text.cell_zero_append, hblank, hmark,
        hmethod]
    · rw [String.append_assoc, Text.cell_append (Nat.le_of_eq hfront), hfront, Nat.sub_self,
        Text.cell_zero_append hblank]
  · refine Text.behind_append ?_
    rw [String.length_append, hfront, hblank]
    omega

/-- The text is the underlined header and a row for each endpoint, in order, all with paths in a
column of the same width. -/
def HasRows (api : Api) (IsRow : Nat → Route → String → Prop) (text : String) : Prop :=
  ∃ pathWidth rows,
    text = api.listingHeader ++ "\n" ++
      String.ofList (List.replicate api.listingHeader.length '─') ++ "\n" ++ String.join rows ∧
    List.Forall₂ (IsRow pathWidth) api.endpoints rows

/-- A listing that is laid out has the rows of its endpoints, at the width of the widest path. -/
theorem hasRows_layout {api : Api} {IsRow : Nat → Route → String → Prop}
    (h : ∀ e ∈ api.endpoints, ∀ pathWidth, (shownPath e.pathPattern).length ≤ pathWidth →
      IsRow pathWidth e (e.listingRow pathWidth)) :
    api.HasRows IsRow (api.layout (Text.columnWidth api.shownPaths)) := by
  refine ⟨Text.columnWidth api.shownPaths, _, rfl, ?_⟩
  rw [List.forall₂_map_right_iff, List.forall₂_same]
  intro e he
  exact h e he _ (Text.length_le_columnWidth (List.mem_map_of_mem he))

/-- All rows are aligned. -/
def Aligned (api : Api) (text : String) : Prop :=
  api.HasRows RowAligned text

theorem aligned_layout (api : Api) :
    api.Aligned (api.layout (Text.columnWidth api.shownPaths)) :=
  hasRows_layout fun _ _ _ h => rowAligned_listingRow h

end Api

/-- A report is shown exactly if its names fit into a column, and an API exactly if the paths of
its endpoints do.  What is shown is aligned. -/
theorem columns_lineUp (r : Report) (api : Api) :
    ((∃ text, r.summary = .ok text) ↔ r.Fits) ∧
      (∀ text, r.summary = .ok text → r.Aligned text) ∧
      ((∃ text, api.listing = .ok text) ↔ api.Fits) ∧
      ∀ text, api.listing = .ok text → api.Aligned text := by
  refine ⟨Report.exists_summary_iff, fun text h => ?_, Api.exists_listing_iff, fun text h => ?_⟩
  · obtain ⟨_, rfl⟩ := Report.summary_eq_ok_iff.mp h
    exact r.aligned_layout
  · obtain ⟨_, rfl⟩ := Api.listing_eq_ok_iff.mp h
    exact api.aligned_layout

/-- In the report one name is longer than the other one in bytes, but not in characters. -/
theorem columns_lineUp_halfOffered :
    (∃ text, Manifest.halfOffered.report.summary = .ok text ∧
      Manifest.halfOffered.report.Aligned text) ∧
      ∃ text, Api.profiles.listing = .ok text ∧ Api.profiles.Aligned text := by
  obtain ⟨hsummary, hreport, hlisting, hapi⟩ := columns_lineUp Manifest.halfOffered.report .profiles
  have hnames : Manifest.halfOffered.report.Fits := by decide
  have hpaths : Text.Fit Api.profiles.shownPaths := by decide
  obtain ⟨text, htext⟩ := hsummary.mpr hnames
  obtain ⟨text', htext'⟩ := hlisting.mpr hpaths
  exact ⟨⟨text, htext, hreport text htext⟩, text', htext', hapi text' htext'⟩

example : Manifest.halfOffered.report.summary = .ok
    ("err  z   route \"b\" :> Delete is not an endpoint of the API\n" ++
     "ok   ä   /a\n" ++
     "\n" ++
     "1 of 2 links verified\n") := by
  decide +kernel

/-! ## A name that is too long -/

/-- A manifest with one target, which is the only endpoint of the API. -/
def Manifest.oneLink (name : String) : Manifest where
  api := .verb .delete
  links := NameMap.empty.insert name (.verb .delete)

/-- A report on one name is laid out exactly if the name fits. -/
theorem Manifest.fits_oneLink_iff (name : String) :
    (oneLink name).report.Fits ↔ name.utf8ByteSize ≤ Text.maxColumnWidth := by
  have hnames : (oneLink name).report.outcomes.names = [name] := rfl
  rw [Report.Fits, hnames, Text.Fit, List.forall_mem_singleton]

/-- With a name of 65536 letters the manifest is read and checked, and the one link in it is
verified.  Still nothing is shown, aligned or not. -/
theorem Report.summary_longestName :
    let m := Manifest.oneLink (String.ofList (List.replicate 65536 'a'))
    Manifest.ofText m.toText = .ok m ∧
      ∃ r, m.check = .ok r ∧ r.size = 1 ∧ r.isOk = true ∧ ¬ ∃ text, r.summary = .ok text := by
  intro m
  have hfits : ¬ m.report.Fits := by
    rw [Manifest.fits_oneLink_iff, Text.utf8ByteSize_replicate]
    decide
  exact ⟨Manifest.ofText_toText_iff.mpr ⟨rfl, rfl⟩, m.report, rfl, rfl, rfl,
    fun h => hfits (exists_summary_iff.mp h)⟩

end VerifiedLinks
