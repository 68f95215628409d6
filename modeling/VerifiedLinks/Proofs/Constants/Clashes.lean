import VerifiedLinks.Proofs.Constants.SourceLines

/-!
# Clashes of constants

A module that is to be compiled declares no name twice.  The names that it declares can be
read off its lines (`declaredNames`).  They are the names of the constants of all links, in
order, and if some name of a link holds a line end there may be more
(`LinkTable.map_constName_sublist`).  So no name is declared twice only if no two links of the
table have names that are alike (`LinkTable.declaredNames_nodup_iff`).  Nothing keeps such
links out of a table.
-/

namespace VerifiedLinks

/-! ## Declared names -/

/-- The name that a line declares, if it begins like a declaration. -/
def declaredName? (line : String) : Option String :=
  ("pub const ".toList.isPrefixOf? line.toList).map fun cs =>
    String.ofList (cs.takeWhile (· != ':'))

/-- The names that are declared on some lines. -/
def declaredNames (lines : List String) : List String :=
  lines.filterMap declaredName?

theorem IsSnake.oneLine {name : String} (h : IsSnake name) : Text.OneLine name := by
  intro hend
  have hchar : IsSnakeChar '\n' := h.1 _ hend
  exact absurd hchar (by unfold IsSnakeChar; decide)

namespace LinkTable

theorem isPrefixOf?_constLine (name : String) (link : Link) :
    "pub const ".toList.isPrefixOf? (constLine name link).toList =
      some ((constName name).toList ++ (": &str = " ++ (Text.quoted link.path ++ ";")).toList) := by
  rw [List.isPrefixOf?_eq_some_iff_append_eq]
  simp [constLine]

theorem isPrefixOf?_commentLine (name : String) :
    "pub const ".toList.isPrefixOf? (commentLine name).toList = none := by
  rw [commentLine, String.append_assoc, String.toList_append]
  rfl

/-- No name of a constant reaches beyond the colon. -/
theorem ne_colon_of_mem_constName {name : String} :
    ∀ c ∈ (constName name).toList, (c != ':') = true := by
  intro c hc
  have hchar : IsConstChar c := isConstChar_of_mem_constName hc
  rw [bne_iff_ne]
  rintro rfl
  exact absurd hchar (by unfold IsConstChar; decide)

/-- On the line of a constant, its name is found. -/
theorem declaredName?_constLine (name : String) (link : Link) :
    declaredName? (constLine name link) = some (constName name) := by
  rw [declaredName?, isPrefixOf?_constLine, Option.map_some,
    List.takeWhile_append_of_pos ne_colon_of_mem_constName]
  simp

theorem declaredName?_commentLine (name : String) : declaredName? (commentLine name) = none := by
  rw [declaredName?, isPrefixOf?_commentLine, Option.map_none]

/-- The lines of a module declare the constants of all links. -/
theorem declaredNames_sourceLines (t : LinkTable) :
    declaredNames t.sourceLines = t.names.map constName := by
  rw [declaredNames, NameMap.names, List.map_map]
  exact filterMap_sourceLines (by decide) (by decide) declaredName?_commentLine
    (fun e => declaredName?_constLine e.1 e.2) t

/-- The names of the constants differ exactly if no two names of links are alike. -/
theorem nodup_map_constName_iff (t : LinkTable) :
    (t.names.map constName).Nodup ↔ ∀ a ∈ t.names, ∀ b ∈ t.names, Alike a b → a = b := by
  rw [List.nodup_map_iff_inj_on t.names_nodup]
  simp only [constName_eq_iff_alike]

/-- Whatever else the lines declare, they declare the constants of all links. -/
theorem map_constName_sublist {t : LinkTable} {lines : List String}
    (hlines : Text.HasLines t.sourceModule lines) :
    (t.names.map constName).Sublist (declaredNames lines) := by
  rw [declaredNames, NameMap.names, List.map_map]
  exact map_sublist_filterMap (fun e => declaredName?_constLine e.1 e.2) hlines

/-- A module declares the constants of all links, and if no name of a link holds a line end it
declares nothing else.  These constants are all different exactly if no two links have names
that are alike.  If all names are made of lower-case letters, digits and underscores behind a
letter, then no name is declared twice. -/
theorem declaredNames_nodup_iff {t : LinkTable} {lines : List String}
    (hlines : Text.HasLines t.sourceModule lines) :
    (t.names.map constName).Sublist (declaredNames lines) ∧
      ((∀ name ∈ t.names, Text.OneLine name) → declaredNames lines = t.names.map constName) ∧
      ((t.names.map constName).Nodup ↔ ∀ a ∈ t.names, ∀ b ∈ t.names, Alike a b → a = b) ∧
      ((∀ name ∈ t.names, IsSnake name) → (declaredNames lines).Nodup) := by
  have hdeclared (hnames : ∀ name ∈ t.names, Text.OneLine name) :
      declaredNames lines = t.names.map constName := by
    rw [hlines.unique (hasLines_sourceModule hnames), declaredNames_sourceLines]
  refine ⟨map_constName_sublist hlines, hdeclared, nodup_map_constName_iff t, fun hsnake => ?_⟩
  rw [hdeclared fun name hname => (hsnake name hname).oneLine, nodup_map_constName_iff]
  intro a ha b hb halike
  exact constName_inj_of_isSnake (hsnake a ha) (hsnake b hb) (constName_eq_iff_alike.mpr halike)

/-- A table of two links. -/
def twoPages : LinkTable :=
  (NameMap.empty.insert "userProfile" ⟨"/users/me"⟩).insert "home" ⟨""⟩

/-- Two names in snake case do not clash. -/
theorem declaredNames_twoPages :
    Text.HasLines twoPages.sourceModule twoPages.sourceLines ∧
      declaredNames twoPages.sourceLines = ["HOME", "USER_PROFILE"] ∧
      ∀ a ∈ twoPages.names, ∀ b ∈ twoPages.names, Alike a b → a = b := by
  have hnames : ∀ name ∈ twoPages.names, Text.OneLine name := by decide
  have hlines := hasLines_sourceModule hnames
  obtain ⟨_, hdeclared, hnodup, _⟩ := declaredNames_nodup_iff hlines
  have hconsts : twoPages.names.map constName = ["HOME", "USER_PROFILE"] := by decide +kernel
  exact ⟨hlines, (hdeclared hnames).trans hconsts, hnodup.mp (by rw [hconsts]; decide)⟩

end LinkTable

/-! ## Two spellings of a name -/

/-- A manifest with two links whose names differ in case only. -/
def Manifest.twoSpellings : Manifest where
  api := .path ["a"] .delete
  links := (NameMap.empty.insert "A" (.path ["a"] .delete)).insert "a" (.path ["a"] .delete)

/-- The manifest is read and verified, and its module declares one name twice. -/
theorem LinkTable.declaredNames_twoSpellings :
    Manifest.ofText Manifest.twoSpellings.toText = .ok Manifest.twoSpellings ∧
      ∃ (t : LinkTable) (lines : List String), Manifest.twoSpellings.verify = .ok t ∧
        t.names = ["A", "a"] ∧ Text.HasLines t.sourceModule lines ∧
        declaredNames lines = ["A", "A"] ∧ ¬ (declaredNames lines).Nodup := by
  have hread : Manifest.ofText Manifest.twoSpellings.toText = .ok Manifest.twoSpellings :=
    Manifest.ofText_toText_iff.mpr ⟨rfl, rfl⟩
  let t : LinkTable := (NameMap.empty.insert "A" ⟨"/a"⟩).insert "a" ⟨"/a"⟩
  have hnames : ∀ name ∈ t.names, Text.OneLine name := by decide
  have hdeclared : declaredNames t.sourceLines = ["A", "A"] := by
    rw [declaredNames_sourceLines]
    decide +kernel
  refine ⟨hread, t, t.sourceLines, rfl, rfl, hasLines_sourceModule hnames, hdeclared, ?_⟩
  rw [hdeclared]
  decide

end VerifiedLinks
