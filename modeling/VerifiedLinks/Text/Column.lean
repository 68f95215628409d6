/-!
# Columns

A column is as wide as its longest cell in bytes, and a cell is padded with spaces
until it has as many characters as the column is wide.  No text has more characters
than bytes (`length_le_utf8ByteSize`), so every cell fits (`length_le_columnWidth`)
and a padded cell is exactly as long as its column is wide (`length_pad`).

A column whose width does not fit into 16 bits is not laid out at all.
-/

namespace VerifiedLinks.Text

/-- A cell with spaces behind it. -/
def pad (width : Nat) (cell : String) : String :=
  cell ++ String.ofList (List.replicate (width - cell.length) ' ')

/-- The width of a column with these cells. -/
def columnWidth (cells : List String) : Nat :=
  (cells.map String.utf8ByteSize).foldl max 0

/-- The width of the widest column that is laid out. -/
def maxColumnWidth : Nat := 0xFFFF

/-- A column is too wide to be laid out. -/
structure ColumnTooWide where
  /-- The width that it would have. -/
  width : Nat
deriving DecidableEq

/-- What the user is told. -/
def ColumnTooWide.message (e : ColumnTooWide) : String :=
  "column of " ++ toString e.width ++ " bytes is wider than " ++ toString maxColumnWidth

/-- The width of a column with these cells, if it can be laid out. -/
def fittingWidth (cells : List String) : Except ColumnTooWide Nat :=
  if columnWidth cells ≤ maxColumnWidth then .ok (columnWidth cells)
  else .error { width := columnWidth cells }

/-- A padded cell is as long as its column is wide. -/
theorem length_pad {width : Nat} {cell : String} (h : cell.length ≤ width) :
    (pad width cell).length = width := by
  simp [pad, String.length_append, Nat.add_sub_cancel' h]

/-- No text has more characters than bytes. -/
theorem length_le_utf8ByteSize (s : String) : s.length ≤ s.utf8ByteSize := by
  suffices h : ∀ cs : List Char, cs.length ≤ (String.ofList cs).utf8ByteSize by
    simpa [String.length_toList] using h s.toList
  intro cs
  induction cs with
  | nil => simp
  | cons c cs ih =>
    have := Char.utf8Size_pos c
    rw [String.ofList_cons, String.utf8ByteSize_append, String.utf8ByteSize_singleton]
    simp only [List.length_cons]
    omega

theorem le_foldl_max (ns : List Nat) (k : Nat) : k ≤ ns.foldl max k := by
  induction ns generalizing k with
  | nil => exact Nat.le_refl k
  | cons n ns ih => exact Nat.le_trans (Nat.le_max_left k n) (ih _)

theorem le_foldl_max_of_mem {ns : List Nat} {n : Nat} (h : n ∈ ns) (k : Nat) :
    n ≤ ns.foldl max k := by
  induction ns generalizing k with
  | nil => cases h
  | cons m ns ih =>
    rcases List.mem_cons.1 h with rfl | h
    · exact Nat.le_trans (Nat.le_max_right k n) (le_foldl_max ns _)
    · exact ih h _

/-- Every cell fits into its column. -/
theorem length_le_columnWidth {cells : List String} {cell : String} (h : cell ∈ cells) :
    cell.length ≤ columnWidth cells :=
  Nat.le_trans (length_le_utf8ByteSize cell) (le_foldl_max_of_mem (List.mem_map_of_mem h) 0)

end VerifiedLinks.Text
