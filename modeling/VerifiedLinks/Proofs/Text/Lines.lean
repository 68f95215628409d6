import VerifiedLinks.Text.Quoted

/-!
# Lines

A text may consist of *lines*: texts without a line end in them, each with a line end behind
it (`Text.HasLines`).  There is at most one way to see a text like that (`HasLines.unique`),
and there is one as soon as the last character is a line end (`exists_hasLines`).  The number
of lines is the number of line ends (`HasLines.length_eq`).

Texts in lines can be put behind each other (`HasLines.append`, `HasLines.join`).
-/

namespace VerifiedLinks.Text

/-! ## Texts without line ends -/

/-- There is no line end in the text. -/
def OneLine (s : String) : Prop :=
  '\n' ∉ s.toList

instance (s : String) : Decidable (OneLine s) :=
  inferInstanceAs (Decidable ('\n' ∉ s.toList))

@[simp] theorem oneLine_append {s t : String} : OneLine (s ++ t) ↔ OneLine s ∧ OneLine t := by
  simp [OneLine]

theorem oneLine_replicate {c : Char} (hc : '\n' ≠ c) (n : Nat) :
    OneLine (String.ofList (List.replicate n c)) := by
  intro h
  rw [String.toList_ofList] at h
  exact hc (List.eq_of_mem_replicate h)

/-- The number of line ends in a text. -/
def lineEnds (s : String) : Nat :=
  s.toList.count '\n'

@[simp] theorem lineEnds_append (s t : String) : lineEnds (s ++ t) = lineEnds s + lineEnds t := by
  simp [lineEnds]

/-- A text without line ends is on one line. -/
theorem lineEnds_eq_zero_iff {s : String} : lineEnds s = 0 ↔ OneLine s :=
  List.count_eq_zero

@[simp] theorem lineEnds_of_oneLine {s : String} (h : OneLine s) : lineEnds s = 0 :=
  lineEnds_eq_zero_iff.mpr h

theorem lineEnds_line (s : String) : lineEnds (s ++ "\n") = lineEnds s + 1 :=
  lineEnds_append s "\n"

/-- The number of line ends in several texts. -/
def allLineEnds (texts : List String) : Nat :=
  lineEnds (String.join texts)

@[simp] theorem allLineEnds_nil : allLineEnds [] = 0 := rfl

@[simp] theorem allLineEnds_cons (s : String) (texts : List String) :
    allLineEnds (s :: texts) = lineEnds s + allLineEnds texts := by
  rw [allLineEnds, String.join_cons, lineEnds_append, allLineEnds]

@[simp] theorem allLineEnds_append (ss ts : List String) :
    allLineEnds (ss ++ ts) = allLineEnds ss + allLineEnds ts := by
  rw [allLineEnds, String.join_append, lineEnds_append, allLineEnds, allLineEnds]

/-- Several texts are free of line ends exactly if each of them is. -/
theorem allLineEnds_eq_zero_iff {texts : List String} :
    allLineEnds texts = 0 ↔ ∀ s ∈ texts, OneLine s := by
  induction texts with
  | nil => simp
  | cons s texts ih =>
      rw [allLineEnds_cons, Nat.add_eq_zero_iff, lineEnds_eq_zero_iff, ih, List.forall_mem_cons]

/-! ## Texts in lines -/

/-- The text consists of these lines. -/
structure HasLines (text : String) (lines : List String) : Prop where
  /-- Each line stands in front of a line end. -/
  text_eq : text = String.join (lines.map (· ++ "\n"))
  /-- No line holds a line end itself. -/
  oneLine : ∀ l ∈ lines, OneLine l

theorem hasLines_nil : HasLines "" [] where
  text_eq := rfl
  oneLine := by simp

/-- A text on one line, with a line end behind it, is one line. -/
theorem hasLines_line {l : String} (h : OneLine l) : HasLines (l ++ "\n") [l] where
  text_eq := by simp
  oneLine := by simpa using h

namespace HasLines

variable {s t : String} {ls ms : List String}

theorem append (h : HasLines s ls) (h' : HasLines t ms) : HasLines (s ++ t) (ls ++ ms) where
  text_eq := by rw [h.text_eq, h'.text_eq, List.map_append, String.join_append]
  oneLine := by
    intro l hl
    cases List.mem_append.mp hl with
    | inl hl => exact h.oneLine l hl
    | inr hl => exact h'.oneLine l hl

/-- Many texts in lines, one behind the other. -/
theorem join {α : Type} {f : α → String} {g : α → List String} {xs : List α}
    (h : ∀ x ∈ xs, HasLines (f x) (g x)) : HasLines (String.join (xs.map f)) (xs.flatMap g) := by
  induction xs with
  | nil => exact hasLines_nil
  | cons x xs ih =>
      obtain ⟨hx, hxs⟩ := List.forall_mem_cons.mp h
      rw [List.map_cons, String.join_cons, List.flatMap_cons]
      exact hx.append (ih hxs)

/-- There are as many lines as line ends. -/
theorem length_eq (h : HasLines s ls) : ls.length = lineEnds s := by
  rw [h.text_eq]
  have hone := h.oneLine
  clear h
  induction ls with
  | nil => rfl
  | cons l ls ih =>
      obtain ⟨hl, hls⟩ := List.forall_mem_cons.mp hone
      rw [List.map_cons, String.join_cons, lineEnds_append, lineEnds_line,
        lineEnds_of_oneLine hl, ← ih hls, List.length_cons]
      omega

/-- The lines are the pieces between the line ends.  Behind the last one is one more piece,
which is empty. -/
theorem toList_eq_intercalate (h : HasLines s ls) :
    s.toList = ['\n'].intercalate (ls.map String.toList ++ [[]]) := by
  rw [h.text_eq]
  clear h
  induction ls with
  | nil => rfl
  | cons l ls ih =>
      have hne : ls.map String.toList ++ [[]] ≠ [] := by simp
      rw [List.map_cons, String.join_cons, String.toList_append, ih, List.map_cons,
        List.cons_append, List.intercalate_cons_of_ne_nil hne]
      simp

/-- The lines of a text are determined by the text. -/
theorem unique (h : HasLines s ls) (h' : HasLines s ms) : ls = ms := by
  have hpieces {ks : List String} (hk : HasLines s ks) :
      s.toList.splitOn '\n' = ks.map String.toList ++ [[]] := by
    rw [hk.toList_eq_intercalate]
    refine List.splitOn_intercalate _ (fun l hl => ?_) (by simp)
    rcases List.mem_append.mp hl with hl | hl
    · obtain ⟨k, hmem, rfl⟩ := List.mem_map.mp hl
      exact hk.oneLine k hmem
    · rw [List.mem_singleton.mp hl]
      exact List.not_mem_nil
  have hmap : ls.map String.toList = ms.map String.toList :=
    List.append_cancel_right ((hpieces h).symm.trans (hpieces h'))
  exact (List.map_inj_right fun _ _ => String.toList_inj.mp).mp hmap

end HasLines

/-- Every text with a line end behind it consists of lines. -/
theorem exists_hasLines (s : String) : ∃ lines, HasLines (s ++ "\n") lines := by
  suffices h : ∀ cs : List Char, ∃ lines, HasLines (String.ofList cs ++ "\n") lines by
    simpa using h s.toList
  intro cs
  induction cs with
  | nil => exact ⟨[""], hasLines_line (by decide)⟩
  | cons c cs ih =>
      obtain ⟨lines, h⟩ := ih
      by_cases hc : c = '\n'
      · subst hc
        have hempty : HasLines ("" ++ "\n") [""] := hasLines_line (by decide)
        refine ⟨"" :: lines, ?_⟩
        have happend := hempty.append h
        simpa [String.ofList_cons, String.append_assoc] using happend
      · -- The character begins the first line, and there is one.
        cases lines with
        | nil =>
            have hlength := h.length_eq
            rw [lineEnds_line, List.length_nil] at hlength
            omega
        | cons l lines =>
            refine ⟨(String.singleton c ++ l) :: lines, ?_, ?_⟩
            · have htext := h.text_eq
              simp only [List.map_cons, String.join_cons] at htext ⊢
              rw [String.ofList_cons, String.append_assoc, htext]
              simp [String.append_assoc]
            · obtain ⟨hl, hlines⟩ := List.forall_mem_cons.mp h.oneLine
              refine List.forall_mem_cons.mpr ⟨?_, hlines⟩
              rw [oneLine_append]
              exact ⟨by simpa [OneLine] using Ne.symm hc, hl⟩

end VerifiedLinks.Text
