import VerifiedLinks.Proofs.Constants.Names

/-!
# Constants as identifiers

The name of a constant is an identifier, whatever the name of its link (`IsIdentifier`).  It
keeps the letters and digits of that name, in capitals and in their order, and all else in it
are underscores (`withoutUnderscores_constName`).

There are three sources of underscores: a character of the name that is neither a letter nor a
digit, a capital that begins a word (`wordMark`), and the front of a name that is empty or begins
with a digit.  Two letters or digits that stand side by side in the name can be parted by the
second source only (`exists_constName_parts`).

What is carried along a name is whether the characters so far end a word (`carried`).  So the
name of a constant can be cut in two wherever the name of its link is (`constChars_append`), and
the cuts in front of two neighbours show all that is put between them.

The main statement is `constName_isIdentifier`.
-/

namespace VerifiedLinks

/-! ## Identifiers -/

/-- Capitals, digits and underscores, at least one of them, with no digit in front. -/
structure IsIdentifier (cs : List Char) : Prop where
  isConstChar : ∀ c ∈ cs, IsConstChar c
  exists_front : ∃ c rest, cs = c :: rest ∧ c.isDigit = false

/-- The characters of the name follow an underscore, or they begin with something else than a
digit. -/
theorem constName_eq_cases (name : String) :
    (constName name).toList = '_' :: constChars false name.toList ∨
      (constName name).toList = constChars false name.toList ∧
        ∃ c cs, constChars false name.toList = c :: cs ∧ c.isDigit = false := by
  rw [constName]
  cases constChars false name.toList with
  | nil => exact .inl rfl
  | cons c cs =>
      rw [String.toList_ofList]
      cases hc : c.isDigit with
      | true => exact .inl rfl
      | false => exact .inr ⟨rfl, c, cs, rfl, hc⟩

/-- The name of a constant is an identifier, whatever the name of the link is. -/
theorem isIdentifier_constName (name : String) : IsIdentifier (constName name).toList := by
  refine ⟨fun c hc => isConstChar_of_mem_constName hc, ?_⟩
  rcases constName_eq_cases name with hname | ⟨hname, c, cs, hcs, hc⟩
  · exact ⟨'_', _, hname, rfl⟩
  · exact ⟨c, cs, hname.trans hcs, hc⟩

/-! ## Capitals and underscores -/

/-- The letters and digits of a text, in capitals. -/
def capitals (cs : List Char) : List Char :=
  (cs.filter Char.isAlphanum).map Char.toUpper

/-- What is left of a text without its underscores. -/
def withoutUnderscores (cs : List Char) : List Char :=
  cs.filter (· ≠ '_')

theorem capitals_append (cs ds : List Char) : capitals (cs ++ ds) = capitals cs ++ capitals ds := by
  rw [capitals, List.filter_append, List.map_append]
  rfl

theorem withoutUnderscores_append (cs ds : List Char) :
    withoutUnderscores (cs ++ ds) = withoutUnderscores cs ++ withoutUnderscores ds :=
  List.filter_append cs ds

theorem withoutUnderscores_constChar (c : Char) :
    withoutUnderscores [constChar c] = capitals [c] := by
  by_cases hc : c.isAlphanum = true
  · have hkept : withoutUnderscores [constChar c] = [constChar c] := by
      simp [withoutUnderscores, constChar_eq_underscore_iff, hc]
    rw [hkept, constChar_of_isAlphanum hc, capitals, List.filter_cons_of_pos hc]
    rfl
  · rw [constChar_of_not_isAlphanum hc, capitals, List.filter_cons_of_neg hc]
    rfl

/-! ## One character after another -/

/-- The underscore in front of a capital that begins a word. -/
def wordMark (afterWord : Bool) (c : Char) : List Char :=
  if c.isUpper && afterWord then ['_'] else []

theorem withoutUnderscores_wordMark (afterWord : Bool) (c : Char) :
    withoutUnderscores (wordMark afterWord c) = [] := by
  rw [wordMark]
  split <;> rfl

/-- Between neighbours a mark stands where a capital follows a small letter or a digit. -/
theorem wordMark_endsWord (c d : Char) :
    wordMark (endsWord c) d =
      if (c.isLower = true ∨ c.isDigit = true) ∧ d.isUpper = true then ['_'] else [] := by
  simp [wordMark, endsWord, and_comm]

theorem constChars_cons (afterWord : Bool) (c : Char) (cs : List Char) :
    constChars afterWord (c :: cs) =
      wordMark afterWord c ++ constChar c :: constChars (endsWord c) cs := by
  rw [constChars, wordMark]
  split <;> rfl

/-- But for underscores, the letters and digits are kept in order, as capitals. -/
theorem withoutUnderscores_constChars (afterWord : Bool) (cs : List Char) :
    withoutUnderscores (constChars afterWord cs) = capitals cs := by
  induction cs generalizing afterWord with
  | nil => rfl
  | cons c cs ih =>
      rw [constChars_cons, ← List.singleton_append, withoutUnderscores_append,
        withoutUnderscores_append, withoutUnderscores_wordMark, withoutUnderscores_constChar, ih,
        List.nil_append, ← capitals_append, List.singleton_append]

/-! ## Names in parts -/

/-- Whether a word ends behind a text, if it is known whether one ends in front of it. -/
def carried (afterWord : Bool) (cs : List Char) : Bool :=
  cs.foldl (fun _ c => endsWord c) afterWord

/-- A name is converted piece by piece, if the state between the pieces is carried on. -/
theorem constChars_append (afterWord : Bool) (cs ds : List Char) :
    constChars afterWord (cs ++ ds) =
      constChars afterWord cs ++ constChars (carried afterWord cs) ds := by
  induction cs generalizing afterWord with
  | nil => rfl
  | cons c cs ih =>
      rw [List.cons_append, constChars_cons, constChars_cons, ih, List.append_assoc,
        List.cons_append]
      rfl

/-- In front of the converted name there are at most underscores. -/
theorem exists_front_constName (name : String) :
    ∃ front, withoutUnderscores front = [] ∧
      (constName name).toList = front ++ constChars false name.toList := by
  rcases constName_eq_cases name with hname | ⟨hname, _⟩
  · exact ⟨['_'], rfl, hname⟩
  · exact ⟨[], rfl, hname⟩

theorem withoutUnderscores_constName (name : String) :
    withoutUnderscores (constName name).toList = capitals name.toList := by
  obtain ⟨front, hfront, hname⟩ := exists_front_constName name
  rw [hname, withoutUnderscores_append, hfront, withoutUnderscores_constChars, List.nil_append]

/-- Between two neighbours nothing is put but the mark of a word. -/
theorem exists_constName_parts {name : String} {before after : List Char} {c d : Char}
    (h : name.toList = before ++ c :: d :: after) :
    ∃ front back,
      (constName name).toList =
        front ++ constChar c :: (wordMark (endsWord c) d ++ constChar d :: back) ∧
      withoutUnderscores front = capitals before ∧ withoutUnderscores back = capitals after := by
  obtain ⟨front, hfront, hname⟩ := exists_front_constName name
  refine ⟨front ++ constChars false before ++ wordMark (carried false before) c,
    constChars (endsWord d) after, ?_, ?_, withoutUnderscores_constChars _ _⟩
  · rw [hname, h, constChars_append, constChars_cons, constChars_cons, List.append_assoc,
      List.append_assoc]
  · rw [withoutUnderscores_append, withoutUnderscores_append, hfront,
      withoutUnderscores_constChars, withoutUnderscores_wordMark, List.nil_append,
      List.append_nil]

/-- The name of a constant is an identifier.  Its characters but the underscores are the letters
and digits of the name of the link, in capitals.  Where two of these are neighbours in that name,
they are parted by one underscore if the first is a small letter or a digit and the second is a
capital, and by nothing otherwise. -/
theorem constName_isIdentifier (name : String) :
    IsIdentifier (constName name).toList ∧
    withoutUnderscores (constName name).toList = capitals name.toList ∧
    ∀ before c d after, name.toList = before ++ c :: d :: after →
      c.isAlphanum = true → d.isAlphanum = true →
      ∃ front back,
        (constName name).toList = front ++ c.toUpper ::
          ((if (c.isLower = true ∨ c.isDigit = true) ∧ d.isUpper = true then ['_'] else []) ++
            d.toUpper :: back) ∧
        withoutUnderscores front = capitals before ∧
        withoutUnderscores back = capitals after := by
  refine ⟨isIdentifier_constName name, withoutUnderscores_constName name, ?_⟩
  intro before c d after hname hc hd
  obtain ⟨front, back, hparts, hfront, hback⟩ := exists_constName_parts hname
  rw [constChar_of_isAlphanum hc, constChar_of_isAlphanum hd, wordMark_endsWord] at hparts
  exact ⟨front, back, hparts, hfront, hback⟩

/-- A digit in front, two words told apart by a capital, and two by a hyphen. -/
theorem constName_isIdentifier_threeWords :
    IsIdentifier (constName "2ndPage-x").toList ∧
      ∃ front back, (constName "2ndPage-x").toList = front ++ 'D' :: '_' :: 'P' :: back ∧
        withoutUnderscores front = ['2', 'N'] ∧
        withoutUnderscores back = ['A', 'G', 'E', 'X'] := by
  obtain ⟨hidentifier, _, hparts⟩ := constName_isIdentifier "2ndPage-x"
  exact ⟨hidentifier, hparts ['2', 'n'] 'd' 'P' ['a', 'g', 'e', '-', 'x'] rfl rfl rfl⟩

end VerifiedLinks
