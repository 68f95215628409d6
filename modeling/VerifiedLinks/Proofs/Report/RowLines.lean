import VerifiedLinks.Proofs.Report.Alignment
import VerifiedLinks.Proofs.Route.RawTexts

/-!
# Lines of reports

In a report there should be a line for each target, with a mark in front that says what became of
it, and in a listing a line for each endpoint.  Each row ends with a line end, and the texts in it
that are quoted hold none.

Names of targets, paths of links, types and the patterns of paths are shown as they are, and no
manifest is refused for a line end in one of these.  Each of them adds a line to the text
(`Report.exists_hasLines_layout`, `Api.exists_hasLines_layout`).  So there is one line for each row
exactly if there are none.  What stands behind a line end can look like the row of another target
(`Report.summary_forgedRow`).  The main statement is `shown_line_by_line`.
-/

namespace VerifiedLinks

/-! ## Line ends -/

namespace Text

@[simp] theorem lineEnds_repr (n : Nat) : lineEnds n.repr = 0 := by
  refine lineEnds_of_oneLine fun h => ?_
  rw [Nat.repr, String.toList_ofList] at h
  obtain ⟨d, hd, hchar⟩ := Quoted.exists_digitChar_of_mem_toDigits (by decide) h
  have hdigits : ∀ d < 10, d.digitChar ≠ '\n' := by decide
  exact hdigits d hd hchar.symm

@[simp] theorem lineEnds_pad (width : Nat) (cell : String) :
    lineEnds (pad width cell) = lineEnds cell := by
  rw [pad, lineEnds_append, lineEnds_of_oneLine (oneLine_replicate (by decide) _), Nat.add_zero]

section

variable {α : Type} {line : α → String}

/-- Behind each of the lines is a line end, and all other line ends are inside of them. -/
theorem lineEnds_join {raw : α → List String} (h : ∀ x, lineEnds (line x) = allLineEnds (raw x))
    (xs : List α) : lineEnds (String.join (xs.map fun x => line x ++ "\n")) =
      xs.length + allLineEnds (xs.flatMap raw) := by
  induction xs with
  | nil => rfl
  | cons x xs ih =>
      rw [List.map_cons, String.join_cons, lineEnds_append, ih, lineEnds_line, h,
        List.flatMap_cons, allLineEnds_append, List.length_cons]
      omega

/-- Texts with line ends behind them consist of lines, whatever they hold. -/
theorem exists_hasLines_join (line : α → String) (xs : List α) :
    ∃ lines, HasLines (String.join (xs.map fun x => line x ++ "\n")) lines := by
  choose lines hlines using fun x => exists_hasLines (line x)
  exact ⟨_, HasLines.join fun x _ => hlines x⟩

/-- With no line end inside of them, these are the lines. -/
theorem hasLines_join {xs : List α} (h : ∀ x ∈ xs, OneLine (line x)) :
    HasLines (String.join (xs.map fun x => line x ++ "\n")) (xs.map line) := by
  rw [List.map_eq_flatMap (f := line)]
  exact HasLines.join fun x hx => hasLines_line (h x hx)

end

end Text

theorem lineEnds_pluralEnd (n : Nat) : Text.lineEnds (pluralEnd n) = 0 := by
  rw [pluralEnd]
  split
  · rfl
  · rfl

theorem lineEnds_shownPath (path : String) :
    Text.lineEnds (shownPath path) = Text.lineEnds path := by
  rw [shownPath]
  split
  next h => rw [h]; rfl
  next => rfl

/-! ## Reports -/

namespace Report

/-- The texts of an outcome that are shown as they are. -/
def rawFinding : Except LinkError Link → List String
  | .ok link => [link.path]
  | .error e => e.shownTypes

/-- The texts of a report that are shown as they are. -/
def rawTexts (r : Report) : List String :=
  r.outcomes.entries.flatMap fun e => e.1 :: rawFinding e.2

/-- The line ends of a finding are those of what it shows as it is. -/
theorem lineEnds_finding (o : Except LinkError Link) :
    Text.lineEnds (finding o) = Text.allLineEnds (rawFinding o) := by
  cases o with
  | ok link => simp [finding, rawFinding, lineEnds_shownPath]
  | error e => exact e.lineEnds_message

/-- The row of a target without its line end. -/
def rowLine (width : Nat) (e : String × Except LinkError Link) : String :=
  mark e.2 ++ Text.pad width e.1 ++ "  " ++ finding e.2

/-- In the row of a target, they are those of its name and of its finding. -/
theorem lineEnds_rowLine (width : Nat) (e : String × Except LinkError Link) :
    Text.lineEnds (rowLine width e) = Text.allLineEnds (e.1 :: rawFinding e.2) := by
  have hmark : Text.lineEnds (mark e.2) = 0 := by
    cases e.2 with
    | ok link => exact Text.lineEnds_of_oneLine (s := "ok   ") (by decide)
    | error e => exact Text.lineEnds_of_oneLine (s := "err  ") (by decide)
  have hblank : Text.lineEnds "  " = 0 := rfl
  simp [rowLine, hmark, hblank, lineEnds_finding]

/-- The last line without its line end. -/
def totalLine (r : Report) : String :=
  toString r.verifiedCount ++ " of " ++ toString r.size ++ " link" ++ pluralEnd r.size ++
    " verified"

theorem total_eq (r : Report) : r.total = r.totalLine ++ "\n" := by
  rw [← String.toList_inj]
  simp [total, totalLine]

theorem oneLine_totalLine (r : Report) : Text.OneLine r.totalLine := by
  rw [← Text.lineEnds_eq_zero_iff]
  simp (disch := decide) [totalLine, lineEnds_pluralEnd]

/-- The empty line behind the rows, if there are any. -/
def blankLines (r : Report) : List String :=
  if r.size = 0 then [] else [""]

theorem hasLines_blankLines (r : Report) :
    Text.HasLines (if r.size = 0 then "" else "\n") r.blankLines := by
  rw [blankLines]
  split
  · exact Text.hasLines_nil
  · exact Text.hasLines_line (l := "") (by decide)

/-- The number of lines that a report should have. -/
def lineCount (r : Report) : Nat :=
  r.size + r.blankLines.length + 1

theorem layout_eq (r : Report) (width : Nat) :
    r.layout width = String.join (r.outcomes.entries.map fun e => rowLine width e ++ "\n") ++
      (if r.size = 0 then "" else "\n") ++ (r.totalLine ++ "\n") := by
  simp only [layout, row_eq, total_eq, rowLine]

/-- Each line end in a text that is shown as it is adds a line. -/
theorem exists_hasLines_layout (r : Report) (width : Nat) :
    ∃ lines, Text.HasLines (r.layout width) lines ∧
      lines.length = r.lineCount + Text.allLineEnds r.rawTexts := by
  obtain ⟨rows, hrows⟩ := Text.exists_hasLines_join (rowLine width) r.outcomes.entries
  refine ⟨rows ++ r.blankLines ++ [r.totalLine], ?_, ?_⟩
  · rw [layout_eq]
    exact (hrows.append r.hasLines_blankLines).append (Text.hasLines_line r.oneLine_totalLine)
  · rw [List.length_append, List.length_append, hrows.length_eq,
      Text.lineEnds_join (lineEnds_rowLine width), lineCount, size, NameMap.size, rawTexts,
      List.length_singleton]
    omega

/-- The text has a line for each outcome, in order and with its mark in front.  Then comes an empty
line, if there are outcomes, and one more line. -/
def LineEach (r : Report) (text : String) : Prop :=
  ∃ rows last, Text.HasLines text (rows ++ r.blankLines ++ [last]) ∧
    List.Forall₂ (fun e row => (mark e.2).toList <+: row.toList) r.outcomes.entries rows

/-- A report with a line for each outcome has as many line ends as it should. -/
theorem LineEach.lineEnds_eq {r : Report} {text : String} (h : r.LineEach text) :
    Text.lineEnds text = r.lineCount := by
  obtain ⟨rows, last, hlines, hrows⟩ := h
  have hsize : r.size = rows.length := hrows.length_eq
  rw [← hlines.length_eq, lineCount, hsize, List.length_append, List.length_append,
    List.length_singleton]

/-- Without line ends in what is shown as it is, each outcome has its line. -/
theorem lineEach_layout {r : Report} (h : ∀ s ∈ r.rawTexts, Text.OneLine s) (width : Nat) :
    r.LineEach (r.layout width) := by
  have hrows : ∀ e ∈ r.outcomes.entries, Text.OneLine (rowLine width e) := by
    intro e he
    rw [← Text.lineEnds_eq_zero_iff, lineEnds_rowLine, Text.allLineEnds_eq_zero_iff]
    exact fun s hs => h s (List.mem_flatMap.mpr ⟨e, he, hs⟩)
  refine ⟨r.outcomes.entries.map (rowLine width), r.totalLine, ?_, ?_⟩
  · rw [layout_eq]
    exact ((Text.hasLines_join hrows).append r.hasLines_blankLines).append
      (Text.hasLines_line r.oneLine_totalLine)
  · rw [List.forall₂_map_right_iff, List.forall₂_same]
    intro e _
    rw [rowLine, String.append_assoc, String.append_assoc, String.toList_append]
    exact List.prefix_append _ _

theorem lineEach_layout_iff (r : Report) (width : Nat) :
    r.LineEach (r.layout width) ↔ ∀ s ∈ r.rawTexts, Text.OneLine s := by
  refine ⟨fun h => ?_, fun h => lineEach_layout h width⟩
  obtain ⟨lines, hlines, hlength⟩ := r.exists_hasLines_layout width
  rw [hlines.length_eq, h.lineEnds_eq] at hlength
  exact Text.allLineEnds_eq_zero_iff.mp (by omega)

end Report

/-! ## Listings -/

namespace Route

/-- The texts of an endpoint that are shown as they are. -/
def rawTexts (r : Route) : List String :=
  r.patternTexts ++ r.shownTypes

/-- The row of an endpoint without its line end. -/
def listingLine (pathWidth : Nat) (r : Route) : String :=
  "  " ++ r.linkMark ++ "  " ++ Text.pad 6 r.shownMethod ++ "  " ++
    Text.pad pathWidth (shownPath r.pathPattern) ++ "  " ++ r.display

/-- In the row of an endpoint, the line ends are those of its pattern and of its types. -/
theorem lineEnds_listingLine (pathWidth : Nat) (r : Route) :
    Text.lineEnds (r.listingLine pathWidth) = Text.allLineEnds r.rawTexts := by
  have hmark : Text.lineEnds r.linkMark = 0 := by
    rw [linkMark]
    split
    · rfl
    · rfl
  have hmethod : Text.lineEnds r.shownMethod = 0 := by
    rw [shownMethod]
    split
    next m _ => cases m <;> rfl
    next => rfl
  have hblank : Text.lineEnds "  " = 0 := rfl
  simp [listingLine, rawTexts, hmark, hmethod, hblank, lineEnds_shownPath, lineEnds_pathPattern,
    lineEnds_display]

end Route

namespace Api

/-- The texts of a listing that are shown as they are. -/
def rawTexts (api : Api) : List String :=
  api.endpoints.flatMap Route.rawTexts

/-- The line below the header. -/
def listingRule (api : Api) : String :=
  String.ofList (List.replicate api.listingHeader.length '─')

theorem oneLine_listingHeader (api : Api) : Text.OneLine api.listingHeader := by
  rw [← Text.lineEnds_eq_zero_iff]
  simp (disch := decide) [listingHeader, lineEnds_pluralEnd]

theorem layout_eq (api : Api) (pathWidth : Nat) :
    api.layout pathWidth = api.listingHeader ++ "\n" ++ (api.listingRule ++ "\n") ++
      String.join (api.endpoints.map fun e => e.listingLine pathWidth ++ "\n") := by
  rw [← String.append_assoc]
  rfl

/-- Each line end in a text that is shown as it is adds a line. -/
theorem exists_hasLines_layout (api : Api) (pathWidth : Nat) :
    ∃ lines, Text.HasLines (api.layout pathWidth) lines ∧
      lines.length = 2 + api.size + Text.allLineEnds api.rawTexts := by
  obtain ⟨rows, hrows⟩ := Text.exists_hasLines_join (Route.listingLine pathWidth) api.endpoints
  have hrule : Text.OneLine api.listingRule := Text.oneLine_replicate (by decide) _
  refine ⟨[api.listingHeader] ++ [api.listingRule] ++ rows, ?_, ?_⟩
  · rw [layout_eq]
    exact ((Text.hasLines_line api.oneLine_listingHeader).append
      (Text.hasLines_line hrule)).append hrows
  · rw [List.length_append, hrows.length_eq,
      Text.lineEnds_join (Route.lineEnds_listingLine pathWidth), endpoints, Route.length_endpoints,
      ← size, ← Nat.add_assoc]
    rfl

/-- A listing has as many lines as it should exactly if nothing in it that is shown as it is holds a
line end. -/
theorem hasLines_layout_iff (api : Api) (pathWidth : Nat) :
    (∃ lines, Text.HasLines (api.layout pathWidth) lines ∧ lines.length = 2 + api.size) ↔
      ∀ s ∈ api.rawTexts, Text.OneLine s := by
  obtain ⟨lines, hlines, hlength⟩ := api.exists_hasLines_layout pathWidth
  rw [← Text.allLineEnds_eq_zero_iff]
  constructor
  · rintro ⟨lines', hlines', hlength'⟩
    rw [hlines.unique hlines'] at hlength
    omega
  · intro h
    exact ⟨lines, hlines, by omega⟩

end Api

/-- What is shown of a report or an API consists of lines.  There are as many as there should be,
and one more for each line end in a text that is shown as it is.  So each outcome of a report, and
each endpoint of an API, has one line exactly if there is no line end in these texts. -/
theorem shown_line_by_line (r : Report) (api : Api) :
    ((∃ text, r.summary = .ok text) ↔ r.Fits) ∧
      (∀ text, r.summary = .ok text →
        (∃ lines, Text.HasLines text lines ∧
          lines.length = r.lineCount + Text.allLineEnds r.rawTexts) ∧
        (r.LineEach text ↔ ∀ s ∈ r.rawTexts, Text.OneLine s)) ∧
      ((∃ text, api.listing = .ok text) ↔ api.Fits) ∧
      ∀ text, api.listing = .ok text →
        (∃ lines, Text.HasLines text lines ∧
          lines.length = 2 + api.size + Text.allLineEnds api.rawTexts) ∧
        ((∃ lines, Text.HasLines text lines ∧ lines.length = 2 + api.size) ↔
          ∀ s ∈ api.rawTexts, Text.OneLine s) := by
  refine ⟨Report.exists_summary_iff, fun text h => ?_, Api.exists_listing_iff, fun text h => ?_⟩
  · obtain ⟨_, rfl⟩ := Report.summary_eq_ok_iff.mp h
    exact ⟨r.exists_hasLines_layout _, r.lineEach_layout_iff _⟩
  · obtain ⟨_, rfl⟩ := Api.listing_eq_ok_iff.mp h
    exact ⟨api.exists_hasLines_layout _, api.hasLines_layout_iff _⟩

/-- No text of the report or the API holds a line end. -/
theorem shown_line_by_line_halfOffered :
    (∃ text, Manifest.halfOffered.report.summary = .ok text ∧
      Manifest.halfOffered.report.LineEach text) ∧
      ∃ text, Api.profiles.listing = .ok text ∧
        ∃ lines, Text.HasLines text lines ∧ lines.length = 4 := by
  obtain ⟨hsummary, hreport, hlisting, hapi⟩ :=
    shown_line_by_line Manifest.halfOffered.report .profiles
  have hnames : Manifest.halfOffered.report.Fits := by decide
  have hpaths : Text.Fit Api.profiles.shownPaths := by decide
  obtain ⟨text, htext⟩ := hsummary.mpr hnames
  obtain ⟨text', htext'⟩ := hlisting.mpr hpaths
  have hraw : ∀ s ∈ Manifest.halfOffered.report.rawTexts, Text.OneLine s := by decide
  have hraw' : ∀ s ∈ Api.profiles.rawTexts, Text.OneLine s := by decide
  exact ⟨⟨text, htext, (hreport text htext).2.mpr hraw⟩, text', htext',
    (hapi text' htext').2.mpr hraw'⟩

/-! ## A forged row -/

/-- A manifest with two targets.  The first one has a link, and its name is on two lines.  The
second one has none. -/
def Manifest.forgedRow : Manifest where
  api := .verb .delete
  links := (NameMap.empty.insert "x\nok   y" (.verb .delete)).insert "y" (.path ["z"] .delete)

/-- The manifest is read and checked, and there is no link for the second target.  In the report a
line says that there is. -/
theorem Report.summary_forgedRow :
    Manifest.ofText Manifest.forgedRow.toText = .ok Manifest.forgedRow ∧
      ∃ r text, Manifest.forgedRow.check = .ok r ∧ r.size = 2 ∧
        r.outcomes.get? "y" = some (.error (.notContained (.path ["z"] .delete))) ∧
        r.summary = .ok text ∧
        Text.HasLines text ["ok   x", "ok   y  /",
          "err  y         route \"z\" :> Delete is not an endpoint of the API", "",
          "1 of 2 links verified"] ∧
        ¬ r.LineEach text := by
  have hsummary : Manifest.forgedRow.report.summary = .ok
      ("ok   x\nok   y  /\n" ++
       "err  y         route \"z\" :> Delete is not an endpoint of the API\n" ++
       "\n" ++
       "1 of 2 links verified\n") := by decide +kernel
  refine ⟨Manifest.ofText_toText_iff.mpr ⟨rfl, rfl⟩, Manifest.forgedRow.report, _, rfl, rfl, rfl,
    hsummary, ⟨?_, ?_⟩, fun h => ?_⟩
  · decide +kernel
  · decide +kernel
  · have hlines := h.lineEnds_eq
    revert hlines
    decide +kernel

end VerifiedLinks
