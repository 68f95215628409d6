import Mathlib.Data.List.Induction
import VerifiedLinks.Proofs.Text.Lines
import VerifiedLinks.Proofs.Text.Quoted

/-!
# Between the quotes

What a quoted text stands for is said by its reader.  What stands between the quotes is described
here without one.

It holds no control character (`Quoted.not_isControl_of_mem_encode`), so quoted text stays on one
line whatever it quotes (`oneLine_quoted`).  A quote in it is *escaped*: the backslashes right in
front of it are odd in number, so one is left that belongs to no other.  At its end no backslash
is left, so the quote behind it is not escaped.  Such a text is *enclosed* by the two quotes
(`Quoted.Enclosed`), and the second of them ends it.

What is written is a *literal* of the text that is quoted: it has these properties, and it is read
as that text (`Quoted.isLiteral_body`).
-/

namespace VerifiedLinks.Text

/-- A control character, of ASCII or of the set that begins with the last one of ASCII. -/
def IsControl (c : Char) : Prop :=
  c.toNat < 0x20 ∨ 0x7F ≤ c.toNat ∧ c.toNat ≤ 0x9F

instance (c : Char) : Decidable (IsControl c) :=
  inferInstanceAs (Decidable (_ ∨ _))

/-- A control character never stands for itself. -/
theorem not_isControl_of_standsAlone {c : Char} (h : standsAlone c = true) : ¬ IsControl c := by
  have hprintable : isUnprintable c = false := by
    simp only [standsAlone_eq, Bool.not_eq_true', Bool.or_eq_false_iff] at h
    exact h.1.1
  intro hc
  have hunprintable : isUnprintable c = true := by
    rcases hc with hlow | ⟨hlo, hhi⟩
    · exact unprintable_of_lt_space hlow
    · have hrange : (0x007F, 0x00A0) ∈ unprintableRanges := .tail _ (.head _)
      exact inRanges_of_mem hrange hlo (Nat.le_succ_of_le hhi)
  rw [hprintable] at hunprintable
  cases hunprintable

namespace Quoted

/-! ## Characters -/

/-- The digits of a number are digits. -/
theorem exists_digitChar_of_mem_toDigits {b : Nat} (hb : 1 < b) {n : Nat} {c : Char}
    (h : c ∈ Nat.toDigits b n) : ∃ d < b, c = d.digitChar := by
  induction n using Nat.strongRecOn with
  | ind n ih =>
      by_cases hn : n < b
      · rw [Nat.toDigits_of_lt_base hn] at h
        exact ⟨n, hn, List.mem_singleton.mp h⟩
      · rw [Nat.toDigits_of_base_le hb (Nat.le_of_not_lt hn), List.mem_append] at h
        have hpos : 0 < n := by omega
        cases h with
        | inl h => exact ih (n / b) (Nat.div_lt_self hpos hb) h
        | inr h => exact ⟨n % b, Nat.mod_lt n (by omega), List.mem_singleton.mp h⟩

theorem codePoint_eq (c : Char) :
    codePoint c = ['\\', 'u'] ++ (['{'] ++ Nat.toDigits 16 c.toNat ++ ['}']) := rfl

theorem standsAlone_of_mem_codePoint {c d : Char} (h : d ∈ codePoint c) : standsAlone d = true := by
  simp only [codePoint_eq, List.mem_append] at h
  rcases h with h | (h | h) | h
  · exact List.all_eq_true.mp rfl d h
  · exact List.all_eq_true.mp rfl d h
  · obtain ⟨n, hn, rfl⟩ := exists_digitChar_of_mem_toDigits (by decide) h
    have hdigits : ∀ n < 16, standsAlone n.digitChar = true := by decide
    exact hdigits n hn
  · exact List.all_eq_true.mp rfl d h

theorem standsAlone_of_escaped? {c e : Char} (h : escaped? e = some c) : standsAlone e = true := by
  obtain ⟨before, behind, hsplit, _⟩ := List.lookup_eq_some_iff.mp h
  have hmem : (e, c) ∈ before ++ (e, c) :: behind := by simp
  rw [← hsplit] at hmem
  exact (List.all_eq_true (p := fun p : Char × Char => standsAlone p.1)).mp rfl (e, c) hmem

/-- Whatever the character, all that is written for it stands alone. -/
theorem standsAlone_of_mem_encodeChar {c d : Char} (h : d ∈ encodeChar c) :
    standsAlone d = true := by
  rcases encodeChar_cases c with ⟨e, he, hc⟩ | ⟨-, -, halone, hc⟩ | hc
  · rw [hc, List.mem_cons, List.mem_singleton] at h
    rcases h with rfl | rfl
    · rfl
    · exact standsAlone_of_escaped? he
  · rw [hc, List.mem_singleton] at h
    exact h ▸ halone
  · rw [hc] at h
    exact standsAlone_of_mem_codePoint h

/-- No control character is in an encoded text. -/
theorem not_isControl_of_mem_encode {cs : List Char} {d : Char} (h : d ∈ encode cs) :
    ¬ IsControl d := by
  obtain ⟨c, _, hd⟩ := List.mem_flatMap.mp h
  exact not_isControl_of_standsAlone (standsAlone_of_mem_encodeChar hd)

/-! ## Quotes and backslashes -/

/-- The number of backslashes at the end of a text. -/
def backslashes (cs : List Char) : Nat :=
  (cs.reverse.takeWhile (· == '\\')).length

/-- The last backslash is at the end of the text and belongs to what follows. -/
def Dangles (cs : List Char) : Prop :=
  backslashes cs % 2 = 1

instance (cs : List Char) : Decidable (Dangles cs) :=
  inferInstanceAs (Decidable (_ = _))

/-- Between two quotes, the text is ended by the second one. -/
structure Enclosed (body : List Char) : Prop where
  /-- Each quote in the text is escaped. -/
  escaped : ∀ before behind, body = before ++ '"' :: behind → Dangles before
  /-- The quote behind the text is not. -/
  complete : ¬ Dangles body

theorem not_dangles_nil : ¬ Dangles [] := by
  decide

/-- A backslash dangles unless it is escaped itself. -/
theorem dangles_concat_iff {cs : List Char} {c : Char} :
    Dangles (cs ++ [c]) ↔ c = '\\' ∧ ¬ Dangles cs := by
  have hconcat : backslashes (cs ++ [c]) = if c = '\\' then backslashes cs + 1 else 0 := by
    by_cases hc : c = '\\'
    · simp [backslashes, hc]
    · simp [backslashes, hc]
  rw [Dangles, Dangles, hconcat]
  split
  next hc =>
    rw [and_iff_right hc]
    omega
  next hc => simp [hc]

/-- What stands behind a text without a dangling backslash is escaped as if it stood alone. -/
theorem dangles_append_iff {cs ds : List Char} (h : ¬ Dangles cs) :
    Dangles (cs ++ ds) ↔ Dangles ds := by
  induction ds using List.reverseRecOn with
  | nil =>
      rw [List.append_nil]
      exact iff_of_false h not_dangles_nil
  | append_singleton ds d ih => rw [← List.append_assoc, dangles_concat_iff, dangles_concat_iff, ih]

theorem enclosed_nil : Enclosed [] where
  escaped before behind h := by simp at h
  complete := not_dangles_nil

theorem Enclosed.append {cs ds : List Char} (hcs : Enclosed cs) (hds : Enclosed ds) :
    Enclosed (cs ++ ds) where
  escaped before behind h := by
    rcases List.append_eq_append_iff.mp h with ⟨middle, rfl, hmiddle⟩ | ⟨middle, hmiddle, hrest⟩
    · exact (dangles_append_iff hcs.complete).mpr (hds.escaped middle behind hmiddle)
    · cases middle with
      | nil => exact absurd (hds.escaped [] behind hrest.symm) not_dangles_nil
      | cons c middle =>
          cases hrest
          exact hcs.escaped before middle hmiddle
  complete := by
    rw [dangles_append_iff hcs.complete]
    exact hds.complete

/-- A run without quotes and backslashes. -/
theorem enclosed_of_plain {cs : List Char} (h : ∀ c ∈ cs, c ≠ '"' ∧ c ≠ '\\') : Enclosed cs where
  escaped before behind hcs := by
    have hquote : '"' ∈ cs := by
      rw [hcs]
      exact List.mem_append_right before List.mem_cons_self
    exact absurd rfl (h '"' hquote).1
  complete := by
    induction cs using List.reverseRecOn with
    | nil => exact not_dangles_nil
    | append_singleton cs c _ =>
        rw [dangles_concat_iff]
        exact fun hc => (h c (by simp)).2 hc.1

/-- A backslash with the character that belongs to it. -/
theorem enclosed_pair (e : Char) : Enclosed ['\\', e] := by
  have hdangles : Dangles ['\\'] := by decide
  constructor
  · intro before behind h
    -- The quote can only be the second of the two.
    rcases before with _ | ⟨c, _ | ⟨d, before⟩⟩
    · simp at h
    · cases h
      exact hdangles
    · simp at h
  · show ¬ Dangles (['\\'] ++ [e])
    rw [dangles_concat_iff]
    exact fun h => h.2 hdangles

theorem enclosed_codePoint (c : Char) : Enclosed (codePoint c) := by
  rw [codePoint_eq]
  refine (enclosed_pair 'u').append (enclosed_of_plain fun d hd => ?_)
  simp only [List.mem_append, List.mem_singleton] at hd
  rcases hd with (rfl | hd) | rfl
  · decide
  · obtain ⟨n, hn, rfl⟩ := exists_digitChar_of_mem_toDigits (by decide) hd
    have hdigits : ∀ n < 16, n.digitChar ≠ '"' ∧ n.digitChar ≠ '\\' := by decide
    exact hdigits n hn
  · decide

/-- No quote in the code of a character ends the literal. -/
theorem enclosed_encodeChar (c : Char) : Enclosed (encodeChar c) := by
  rcases encodeChar_cases c with ⟨e, _, hc⟩ | ⟨hquote, hbackslash, -, hc⟩ | hc
  · rw [hc]
    exact enclosed_pair e
  · rw [hc]
    exact enclosed_of_plain (List.forall_mem_singleton.mpr ⟨hquote, hbackslash⟩)
  · rw [hc]
    exact enclosed_codePoint c

/-- No quote in an encoded text ends the literal. -/
theorem enclosed_encode (cs : List Char) : Enclosed (encode cs) := by
  induction cs with
  | nil => exact enclosed_nil
  | cons c cs ih => exact (enclosed_encodeChar c).append ih

/-! ## Literals -/

/-- Between two quotes, the one text is a literal of the other text. -/
structure IsLiteral (body s : String) : Prop where
  /-- It is read as the other text, and reading stops at the second quote. -/
  read_eq : ∀ rest : String,
    read ("\"" ++ body ++ "\"" ++ rest).toList = some (s.toList, rest.toList)
  /-- No other quote in it could end the text, and the second quote does. -/
  enclosed : Enclosed body.toList
  /-- All characters in it can be printed. -/
  not_isControl : ∀ c ∈ body.toList, ¬ IsControl c

/-- What is written between the quotes. -/
def body (s : String) : String :=
  String.ofList (encode s.toList)

theorem quoted_eq (s : String) : quoted s = "\"" ++ body s ++ "\"" := by
  rw [← String.toList_inj]
  simp [quoted, body]

/-- The body is a literal that stands for the text. -/
theorem isLiteral_body (s : String) : IsLiteral (body s) s where
  read_eq rest := by
    rw [← quoted_eq]
    exact read_quoted s rest
  enclosed := by
    rw [body, String.toList_ofList]
    exact enclosed_encode s.toList
  not_isControl c hc := by
    rw [body, String.toList_ofList] at hc
    exact not_isControl_of_mem_encode hc

example : body "/\"\\\x001\u0301\n" = "/\\\"\\\\\\01\\u\x7b301\x7d\\n" := by
  decide +kernel

end Quoted

/-- Quoted text stays on one line. -/
theorem oneLine_quoted (s : String) : OneLine (quoted s) := by
  have hcontrol : IsControl '\n' := by decide
  have hbody : '\n' ∉ Quoted.encode s.toList := fun h => Quoted.not_isControl_of_mem_encode h hcontrol
  simp [OneLine, quoted, hbody]

end VerifiedLinks.Text
