import VerifiedLinks.Api.Listing

/-!
# Columns that fit

A report is shown exactly if each of its names fits into a column (`Report.Fits`), and an
endpoint listing exactly if each of its paths does (`Api.Fits`).  That a column is as wide as
its longest cell plays no part in it (`Text.columnWidth_le_iff`), so what is shown of a report
is also shown of its beginning (`Report.Fits.of_beginning`).

A cell is read off a row by where its column begins and how wide it is (`Text.cell`).
-/

namespace VerifiedLinks

/-! ## Cells -/

namespace Text

theorem foldl_max_le_iff {ns : List Nat} {k n : Nat} :
    ns.foldl max k ≤ n ↔ k ≤ n ∧ ∀ m ∈ ns, m ≤ n := by
  induction ns generalizing k with
  | nil => simp
  | cons m ns ih => rw [List.foldl_cons, ih, Nat.max_le, List.forall_mem_cons, and_assoc]

/-- A column is no wider than a bound exactly if none of its cells is. -/
theorem columnWidth_le_iff {cells : List String} {width : Nat} :
    columnWidth cells ≤ width ↔ ∀ cell ∈ cells, cell.utf8ByteSize ≤ width := by
  simp [columnWidth, foldl_max_le_iff]

/-- Each cell is short enough for a column. -/
def Fit (cells : List String) : Prop :=
  ∀ cell ∈ cells, cell.utf8ByteSize ≤ maxColumnWidth

instance (cells : List String) : Decidable (Fit cells) :=
  inferInstanceAs (Decidable (∀ cell ∈ cells, cell.utf8ByteSize ≤ maxColumnWidth))

/-- With cells that fit, a column is as wide as the widest one. -/
theorem fittingWidth_of_fit {cells : List String} (h : Fit cells) :
    fittingWidth cells = .ok (columnWidth cells) :=
  if_pos (columnWidth_le_iff.mpr h)

/-- With a cell that does not fit, the width that the column would have is told. -/
theorem fittingWidth_of_not_fit {cells : List String} (h : ¬ Fit cells) :
    fittingWidth cells = .error ⟨columnWidth cells⟩ :=
  if_neg fun hle => h (columnWidth_le_iff.mp hle)

theorem utf8ByteSize_replicate (n : Nat) :
    (String.ofList (List.replicate n 'a')).utf8ByteSize = n := by
  induction n with
  | zero => rfl
  | succ n ih =>
      rw [List.replicate_succ, String.ofList_cons, String.utf8ByteSize_append, ih]
      exact Nat.add_comm 1 n

/-- What stands in a row in the column that begins at `start`. -/
def cell (start width : Nat) (row : String) : String :=
  String.ofList ((row.toList.drop start).take width)

/-- What stands in front of a column does not show in it. -/
theorem cell_append {start width : Nat} {front row : String} (h : front.length ≤ start) :
    cell start width (front ++ row) = cell (start - front.length) width row := by
  rw [← String.length_toList] at h ⊢
  rw [cell, cell, String.toList_append, List.drop_append, List.drop_eq_nil_of_le h, List.nil_append]

/-- The first cell of a row stands in front of everything else. -/
theorem cell_zero_append {width : Nat} {content back : String} (h : content.length = width) :
    cell 0 width (content ++ back) = content := by
  rw [← String.length_toList] at h
  rw [cell, String.toList_append, List.drop_zero, List.take_left' h, String.ofList_toList]

end Text

/-! ## Reports -/

namespace Report

/-- Each name is short enough for a column. -/
def Fits (r : Report) : Prop :=
  Text.Fit r.outcomes.names

instance (r : Report) : Decidable r.Fits :=
  inferInstanceAs (Decidable (Text.Fit r.outcomes.names))

/-- With names that fit, a report is laid out. -/
theorem summary_of_fits {r : Report} (h : r.Fits) :
    r.summary = .ok (r.layout (Text.columnWidth r.outcomes.names)) := by
  rw [summary, Text.fittingWidth_of_fit h]
  rfl

/-- With a name that does not, there is no report. -/
theorem summary_of_not_fits {r : Report} (h : ¬ r.Fits) :
    r.summary = .error ⟨Text.columnWidth r.outcomes.names⟩ := by
  rw [summary, Text.fittingWidth_of_not_fit h]
  rfl

/-- A report is shown exactly if all names fit, and it is always the same text. -/
theorem summary_eq_ok_iff {r : Report} {text : String} :
    r.summary = .ok text ↔ r.Fits ∧ text = r.layout (Text.columnWidth r.outcomes.names) := by
  by_cases h : r.Fits
  · rw [summary_of_fits h, Except.ok.injEq, and_iff_right h, eq_comm]
  · rw [summary_of_not_fits h]
    exact iff_of_false (fun hok => by cases hok) (fun hok => h hok.1)

theorem exists_summary_iff {r : Report} : (∃ text, r.summary = .ok text) ↔ r.Fits := by
  simp only [summary_eq_ok_iff, exists_and_left, exists_eq, and_true]

/-- If all names fit, those that are seen up to a failure do. -/
theorem Fits.of_beginning {r r' : Report} (hbegin : r'.outcomes.entries <+: r.outcomes.entries)
    (h : r.Fits) : r'.Fits := by
  intro name hname
  obtain ⟨e, he, rfl⟩ := List.mem_map.mp hname
  exact h e.1 (List.mem_map_of_mem (hbegin.subset he))

end Report

/-! ## Listings -/

namespace Api

/-- Each path is short enough for a column. -/
def Fits (api : Api) : Prop :=
  Text.Fit api.shownPaths

/-- With paths that fit, a listing is laid out. -/
theorem listing_of_fits {api : Api} (h : api.Fits) :
    api.listing = .ok (api.layout (Text.columnWidth api.shownPaths)) := by
  rw [listing, Text.fittingWidth_of_fit h]
  rfl

/-- With a path that does not, there is no listing. -/
theorem listing_of_not_fits {api : Api} (h : ¬ api.Fits) :
    api.listing = .error ⟨Text.columnWidth api.shownPaths⟩ := by
  rw [listing, Text.fittingWidth_of_not_fit h]
  rfl

/-- A listing is shown exactly if all paths fit, and it is always the same text. -/
theorem listing_eq_ok_iff {api : Api} {text : String} :
    api.listing = .ok text ↔ api.Fits ∧ text = api.layout (Text.columnWidth api.shownPaths) := by
  by_cases h : api.Fits
  · rw [listing_of_fits h, Except.ok.injEq, and_iff_right h, eq_comm]
  · rw [listing_of_not_fits h]
    exact iff_of_false (fun hok => by cases hok) (fun hok => h hok.1)

theorem exists_listing_iff {api : Api} : (∃ text, api.listing = .ok text) ↔ api.Fits := by
  simp only [listing_eq_ok_iff, exists_and_left, exists_eq, and_true]

end Api

end VerifiedLinks
