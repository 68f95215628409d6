import VerifiedLinks.Proofs.Constants.Clashes
import VerifiedLinks.Proofs.Text.Literals

/-!
# Values of constants

A constant holds the path of its link.  The path is quoted, and whatever it holds the quoted text
is read back as the path and as nothing more.  So the semicolon behind the quoted text is read as
the end of the declaration, and each declaration can be read from its line (`declared?`).

A name that holds a line end may bring lines of its own that look like declarations.  That does
not change what the others hold: they are read from the lines of the module in the order of the
links, and if all names are on one line there are no others.

The main statement is `LinkTable.constants_hold_paths`.
-/

namespace VerifiedLinks

/-- The name and the text that a line declares, if it is a declaration to its end. -/
def declared? (line : String) : Option (String × String) := do
  let cs ← "pub const ".toList.isPrefixOf? line.toList
  let ds ← ": &str = ".toList.isPrefixOf? (cs.dropWhile (· != ':'))
  let (text, back) ← Text.Quoted.read ds
  if back = [';'] then some (String.ofList (cs.takeWhile (· != ':')), String.ofList text) else none

namespace LinkTable

/-! ## Declarations -/

/-- On the line of a constant, its name and its path are found. -/
theorem declared?_constLine (name : String) (link : Link) :
    declared? (constLine name link) = some (constName name, link.path) := by
  have hfront := isPrefixOf?_constLine name link
  obtain ⟨back, hback⟩ : ∃ back, back = ": &str = " ++ (Text.quoted link.path ++ ";") := ⟨_, rfl⟩
  rw [← hback] at hfront
  have hname : ((constName name).toList ++ back.toList).takeWhile (· != ':') =
      (constName name).toList := by
    rw [List.takeWhile_append_of_pos ne_colon_of_mem_constName]
    simp [hback]
  have hrest : ((constName name).toList ++ back.toList).dropWhile (· != ':') = back.toList := by
    rw [List.dropWhile_append_of_pos ne_colon_of_mem_constName]
    simp [hback]
  have htype : ": &str = ".toList.isPrefixOf? back.toList =
      some (Text.quoted link.path ++ ";").toList := by
    rw [List.isPrefixOf?_eq_some_iff_append_eq, hback]
    exact String.toList_append.symm
  rw [declared?, hfront]
  simp only [Option.bind_eq_bind, Option.bind_some, hname, hrest, htype, Text.Quoted.read_quoted,
    String.ofList_toList]
  rfl

theorem declared?_of_not_begins {line : String}
    (h : "pub const ".toList.isPrefixOf? line.toList = none) : declared? line = none := by
  rw [declared?, h]
  rfl

/-- The source code of some constants. -/
def declarations (es : List (String × Link)) : String :=
  String.join (es.map fun e => declaration e.1 e.2)

/-- A constant stands behind those of the entries before it. -/
theorem sourceModule_of_entries {t : LinkTable} {before behind : List (String × Link)}
    {name : String} {link : Link} (h : t.entries = before ++ (name, link) :: behind) :
    t.sourceModule = headLine ++ "\n" ++ declarations before ++ "\n" ++ commentLine name ++
      "\npub const " ++ constName name ++ ": &str = \"" ++ Text.Quoted.body link.path ++ "\";\n" ++
      declarations behind := by
  rw [sourceModule_eq, h, ← String.toList_inj]
  simp [declarations, declaration, commentLine, Text.Quoted.quoted_eq]

/-- On the lines of a module, the paths of all links are found in order. -/
theorem exists_declared_lines (t : LinkTable) :
    ∃ lines, Text.HasLines t.sourceModule lines ∧
      (t.entries.map fun e => (constName e.1, e.2.path)).Sublist (lines.filterMap declared?) ∧
      ((∀ name ∈ t.names, Text.OneLine name) →
        lines.filterMap declared? = t.entries.map fun e => (constName e.1, e.2.path)) := by
  have hconst (e : String × Link) := declared?_constLine e.1 e.2
  obtain ⟨lines, hlines, _⟩ := exists_hasLines_sourceModule t
  refine ⟨lines, hlines, map_sublist_filterMap hconst hlines, fun hnames => ?_⟩
  rw [hlines.unique (hasLines_sourceModule hnames)]
  exact filterMap_sourceLines (declared?_of_not_begins rfl) (declared?_of_not_begins rfl)
    (fun name => declared?_of_not_begins (isPrefixOf?_commentLine name)) hconst t

/-- Behind the name of a constant stands a literal of the path of its link, between two quotes.
From the lines of a module the name and the path of each constant can be read, in the order of the
links, and nothing else if all names are on one line. -/
theorem constants_hold_paths (t : LinkTable) :
    (∀ before name link behind, t.entries = before ++ (name, link) :: behind →
      ∃ body, Text.Quoted.IsLiteral body link.path ∧
        t.sourceModule = headLine ++ "\n" ++ declarations before ++ "\n" ++ commentLine name ++
          "\npub const " ++ constName name ++ ": &str = \"" ++ body ++ "\";\n" ++
          declarations behind) ∧
    ∃ lines, Text.HasLines t.sourceModule lines ∧
      (t.entries.map fun e => (constName e.1, e.2.path)).Sublist (lines.filterMap declared?) ∧
      ((∀ name ∈ t.names, Text.OneLine name) →
        lines.filterMap declared? = t.entries.map fun e => (constName e.1, e.2.path)) := by
  refine ⟨fun before name link behind h => ?_, t.exists_declared_lines⟩
  exact ⟨_, Text.Quoted.isLiteral_body link.path, sourceModule_of_entries h⟩

/-- A table of two links.  In the path of the second one are a quote, a backslash, a null in front
of a digit, a combining accent and a line end. -/
def oddPaths : LinkTable :=
  (NameMap.empty.insert "home" ⟨""⟩).insert "odd" ⟨"/\"\\\x001\u0301\n"⟩

/-- Short escapes and escapes of code points are read back. -/
theorem constants_hold_oddPaths :
    (∃ body, Text.Quoted.IsLiteral body "/\"\\\x001\u0301\n" ∧
      oddPaths.sourceModule = "// @generated by linkcheck. Do not edit.\n\n" ++
        "/// `home`\npub const HOME: &str = \"\";\n\n" ++
        "/// `odd`\npub const ODD: &str = \"" ++ body ++ "\";\n") ∧
    ∃ lines, Text.HasLines oddPaths.sourceModule lines ∧
      lines.filterMap declared? = [("HOME", ""), ("ODD", "/\"\\\x001\u0301\n")] := by
  obtain ⟨hentries, lines, hlines, _, hdeclared⟩ := constants_hold_paths oddPaths
  have hnames : ∀ name ∈ oddPaths.names, Text.OneLine name := by decide
  have hhome : constName "home" = "HOME" := by decide +kernel
  have hodd : constName "odd" = "ODD" := by decide +kernel
  have hquoted : Text.quoted "" = "\"\"" := by decide
  obtain ⟨body, hbody, hmodule⟩ := hentries [("home", ⟨""⟩)] "odd" _ [] rfl
  refine ⟨⟨body, hbody, ?_⟩, lines, hlines, ?_⟩
  · rw [hmodule, hodd, ← String.toList_inj]
    simp [headLine, commentLine, declarations, declaration, hhome, hquoted]
  · rw [hdeclared hnames]
    show [(constName "home", _), (constName "odd", _)] = _
    rw [hhome, hodd]

end LinkTable

end VerifiedLinks
