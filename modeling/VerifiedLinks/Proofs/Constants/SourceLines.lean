import VerifiedLinks.Proofs.Constants.Names
import VerifiedLinks.Proofs.Manifest.RoundTrip
import VerifiedLinks.Proofs.Manifest.Verify
import VerifiedLinks.Proofs.Text.Literals

/-!
# Lines of source modules

The declaration of a constant should take three lines: an empty one, a comment with the name
of the link, and the constant itself (`LinkTable.sourceLines`).  The path of the link stands
between quotes, and the name of the constant is made of capitals, digits and underscores, so
neither brings a line of its own.

The comment holds the name of the link as it is.  A line end in the name ends the comment, and
what stands behind it is no comment any more.  So a module consists of the lines that it
should have exactly if no name holds a line end, and otherwise it has one more for each line
end in a name (`LinkTable.sourceModule_hasLines_iff`).
-/

namespace VerifiedLinks

theorem oneLine_constName (name : String) : Text.OneLine (constName name) := by
  intro h
  have hchar : IsConstChar '\n' := isConstChar_of_mem_constName h
  exact absurd hchar (by unfold IsConstChar; decide)

namespace LinkTable

/-! ## Declarations -/

/-- The first line of a module. -/
def headLine : String :=
  "// @generated by linkcheck. Do not edit."

/-- The comment on a constant. -/
def commentLine (name : String) : String :=
  "/// `" ++ name ++ "`"

/-- The constant of a link. -/
def constLine (name : String) (link : Link) : String :=
  "pub const " ++ constName name ++ ": &str = " ++ Text.quoted link.path ++ ";"

/-- The lines that a module should have. -/
def sourceLines (t : LinkTable) : List String :=
  headLine :: t.entries.flatMap fun e => ["", commentLine e.1, constLine e.1 e.2]

theorem length_sourceLines (t : LinkTable) : t.sourceLines.length = 1 + 3 * t.size := by
  simp [sourceLines, NameMap.size, Nat.add_comm, Nat.mul_comm]

theorem declaration_eq (name : String) (link : Link) :
    declaration name link =
      ("" ++ "\n") ++ (commentLine name ++ "\n") ++ (constLine name link ++ "\n") := by
  rw [← String.toList_inj]
  simp [declaration, commentLine, constLine]

/-- The line ends of a comment are those of the name in it. -/
theorem lineEnds_commentLine (name : String) :
    Text.lineEnds (commentLine name) = Text.lineEnds name := by
  simp (disch := decide) [commentLine]

/-- A constant is on one line, whatever its path is. -/
theorem oneLine_constLine (name : String) (link : Link) : Text.OneLine (constLine name link) := by
  have hpub : Text.OneLine "pub const " := by decide
  have htype : Text.OneLine ": &str = " := by decide
  have hend : Text.OneLine ";" := by decide
  simp [constLine, hpub, htype, hend, oneLine_constName, Text.oneLine_quoted]

/-- With a name on one line there are three lines. -/
theorem hasLines_declaration {name : String} (link : Link) (h : Text.OneLine name) :
    Text.HasLines (declaration name link) ["", commentLine name, constLine name link] := by
  have hcomment : Text.OneLine (commentLine name) := by
    rw [← Text.lineEnds_eq_zero_iff, lineEnds_commentLine, Text.lineEnds_of_oneLine h]
  rw [declaration_eq]
  exact ((Text.hasLines_line (by decide)).append (Text.hasLines_line hcomment)).append
    (Text.hasLines_line (oneLine_constLine name link))

/-- Whatever the name, there are lines, and one more than three for each line end in it.  The
constant is one of them. -/
theorem exists_hasLines_declaration (name : String) (link : Link) :
    ∃ lines, Text.HasLines (declaration name link) lines ∧
      lines.length = 3 + Text.lineEnds name ∧ [constLine name link].Sublist lines := by
  obtain ⟨comment, hcomment⟩ := Text.exists_hasLines (commentLine name)
  have hdeclaration : Text.HasLines (declaration name link)
      ([""] ++ comment ++ [constLine name link]) := by
    rw [declaration_eq]
    exact ((Text.hasLines_line (by decide)).append hcomment).append
      (Text.hasLines_line (oneLine_constLine name link))
  have hlength : comment.length = Text.lineEnds name + 1 := by
    rw [hcomment.length_eq, Text.lineEnds_line, lineEnds_commentLine]
  refine ⟨_, hdeclaration, ?_, List.sublist_append_right _ _⟩
  simp only [List.length_append, List.length_singleton, hlength]
  omega

/-! ## Modules -/

/-- The number of line ends in the names of a table. -/
def lineEnds (t : LinkTable) : Nat :=
  Text.allLineEnds t.names

theorem hasLines_headLine : Text.HasLines (headLine ++ "\n") [headLine] :=
  Text.hasLines_line (by decide)

theorem sourceModule_eq (t : LinkTable) :
    t.sourceModule = (headLine ++ "\n") ++
      String.join (t.entries.map fun e => declaration e.1 e.2) := rfl

/-- With names on one line each, a module has the lines that it should have. -/
theorem hasLines_sourceModule {t : LinkTable} (h : ∀ name ∈ t.names, Text.OneLine name) :
    Text.HasLines t.sourceModule t.sourceLines := by
  rw [sourceModule_eq]
  refine hasLines_headLine.append (Text.HasLines.join fun e he => ?_)
  exact hasLines_declaration e.2 (h e.1 (List.mem_map_of_mem he))

/-- The declarations of several links consist of lines, with the constants among them in order. -/
theorem exists_hasLines_declarations (es : List (String × Link)) :
    ∃ lines, Text.HasLines (String.join (es.map fun e => declaration e.1 e.2)) lines ∧
      lines.length = 3 * es.length + Text.allLineEnds (es.map Prod.fst) ∧
      (es.map fun e => constLine e.1 e.2).Sublist lines := by
  induction es with
  | nil => exact ⟨[], Text.hasLines_nil, rfl, List.Sublist.refl []⟩
  | cons e es ih =>
      obtain ⟨below, hbelow, hlength, hconsts⟩ := ih
      obtain ⟨lines, hlines, hcount, hconst⟩ := exists_hasLines_declaration e.1 e.2
      refine ⟨lines ++ below, ?_, ?_, hconst.append hconsts⟩
      · rw [List.map_cons, String.join_cons]
        exact hlines.append hbelow
      · rw [List.length_append, hcount, hlength, List.length_cons, List.map_cons,
          Text.allLineEnds_cons]
        omega

theorem exists_hasLines_sourceModule (t : LinkTable) :
    ∃ lines, Text.HasLines t.sourceModule lines ∧
      lines.length = 1 + 3 * t.size + t.lineEnds ∧
      (t.entries.map fun e => constLine e.1 e.2).Sublist lines := by
  obtain ⟨lines, hlines, hlength, hconsts⟩ := exists_hasLines_declarations t.entries
  refine ⟨[headLine] ++ lines, ?_, ?_, hconsts.trans (List.sublist_append_right _ _)⟩
  · rw [sourceModule_eq]
    exact hasLines_headLine.append hlines
  · rw [List.length_append, List.length_singleton, hlength, lineEnds, NameMap.names, NameMap.size]
    omega

/-! ## Readers of lines -/

section

variable {α : Type} {read? : String → Option α} {g : String × Link → α}

/-- A reader that knows constants finds that of each link, in order. -/
theorem map_sublist_filterMap (hconst : ∀ e, read? (constLine e.1 e.2) = some (g e))
    {t : LinkTable} {lines : List String} (hlines : Text.HasLines t.sourceModule lines) :
    (t.entries.map g).Sublist (lines.filterMap read?) := by
  obtain ⟨lines', hlines', _, hconsts⟩ := exists_hasLines_sourceModule t
  have hread : (t.entries.map fun e => constLine e.1 e.2).filterMap read? = t.entries.map g := by
    induction t.entries with
    | nil => rfl
    | cons e es ih => rw [List.map_cons, List.map_cons, List.filterMap_cons_some (hconst e), ih]
  rw [← hread, hlines.unique hlines']
  exact hconsts.filterMap read?

/-- If it passes over all other lines, that is all it finds on the lines that a module should
have. -/
theorem filterMap_sourceLines (hhead : read? headLine = none) (hempty : read? "" = none)
    (hcomment : ∀ name, read? (commentLine name) = none)
    (hconst : ∀ e, read? (constLine e.1 e.2) = some (g e)) (t : LinkTable) :
    t.sourceLines.filterMap read? = t.entries.map g := by
  rw [sourceLines, List.filterMap_cons_none hhead]
  induction t.entries with
  | nil => rfl
  | cons e es ih =>
      rw [List.flatMap_cons, List.filterMap_append, ih, List.map_cons,
        List.filterMap_cons_none hempty, List.filterMap_cons_none (hcomment e.1),
        List.filterMap_cons_some (hconst e)]
      rfl

end

/-- A module always consists of lines: one, three for each link, and one for each line end in
a name.  So there are three for each link exactly if no name holds a line end, and then they
are an empty one, a comment and a constant. -/
theorem sourceModule_hasLines_iff (t : LinkTable) :
    (∃ lines, Text.HasLines t.sourceModule lines ∧ lines.length = 1 + 3 * t.size + t.lineEnds) ∧
      ((∃ lines, Text.HasLines t.sourceModule lines ∧ lines.length = 1 + 3 * t.size) ↔
        ∀ name ∈ t.names, Text.OneLine name) ∧
      (Text.HasLines t.sourceModule t.sourceLines ↔ ∀ name ∈ t.names, Text.OneLine name) := by
  obtain ⟨lines, hlines, hlength, _⟩ := exists_hasLines_sourceModule t
  have honly {lines' : List String} (h : Text.HasLines t.sourceModule lines')
      (h' : lines'.length = 1 + 3 * t.size) : ∀ name ∈ t.names, Text.OneLine name := by
    rw [← hlines.unique h, hlength] at h'
    exact Text.allLineEnds_eq_zero_iff.mp (show t.lineEnds = 0 by omega)
  refine ⟨⟨lines, hlines, hlength⟩, ⟨?_, ?_⟩, ⟨?_, hasLines_sourceModule⟩⟩
  · rintro ⟨lines', h, h'⟩
    exact honly h h'
  · intro h
    exact ⟨t.sourceLines, hasLines_sourceModule h, t.length_sourceLines⟩
  · intro h
    exact honly h t.length_sourceLines

end LinkTable

/-! ## A name with a line end -/

/-- A manifest that names a link on two lines. -/
def Manifest.brokenName : Manifest where
  api := .verb .delete
  links := NameMap.empty.insert "a\nb" (.verb .delete)

/-- The manifest is read and verified, and its module has a line that is neither empty nor a
comment nor a constant. -/
theorem LinkTable.sourceModule_brokenName :
    Manifest.ofText Manifest.brokenName.toText = .ok Manifest.brokenName ∧
      ∃ t : LinkTable, Manifest.brokenName.verify = .ok t ∧ t.size = 1 ∧
        Text.HasLines t.sourceModule
          [headLine, "", "/// `a", "b`", "pub const A_B: &str = \"\";"] ∧
        ¬ ∃ lines, Text.HasLines t.sourceModule lines ∧ lines.length = 1 + 3 * t.size := by
  have hread : Manifest.ofText Manifest.brokenName.toText = .ok Manifest.brokenName :=
    Manifest.ofText_toText_iff.mpr ⟨rfl, rfl⟩
  have hverify : Manifest.brokenName.verify = .ok (NameMap.empty.insert "a\nb" ⟨""⟩) := rfl
  have hlines : Text.HasLines (LinkTable.sourceModule (NameMap.empty.insert "a\nb" ⟨""⟩))
      [headLine, "", "/// `a", "b`", "pub const A_B: &str = \"\";"] := by
    constructor
    · decide +kernel
    · decide +kernel
  refine ⟨hread, _, hverify, rfl, hlines, ?_⟩
  rintro ⟨lines, h, hlength⟩
  rw [← hlines.unique h] at hlength
  exact absurd hlength (by decide)

end VerifiedLinks
