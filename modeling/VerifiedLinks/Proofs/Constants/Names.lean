import Mathlib
import VerifiedLinks.Constants

/-!
# Names of constants

The name of a constant is made in two steps.  First the name of the link is spread: an
underscore is put between two words that are told apart by a capital only, and in front of
a name that is empty or begins with a digit (`spreadName`).  Then each character is put in
capitals, and what is neither a letter nor a digit becomes an underscore
(`constName_eq_map_spreadName`).

Both steps lose something, so two links can have constants of the same name.  They do exactly
if their names are *alike*: once they are spread, they agree place by place up to capitals and
up to the choice of the character that separates words (`constName_eq_iff_alike`).  Names of
lower-case letters, digits and underscores that begin with a letter are alike only if they are
the same (`constName_inj_of_isSnake`).
-/

namespace VerifiedLinks

/-! ## Characters -/

section

variable {c : Char}

theorem isUpper_iff_range : c.isUpper = true ↔ 65 ≤ c.toNat ∧ c.toNat ≤ 90 := by
  simp [Char.isUpper, UInt32.le_iff_toNat_le]

theorem isLower_iff_range : c.isLower = true ↔ 97 ≤ c.toNat ∧ c.toNat ≤ 122 := by
  simp [Char.isLower, UInt32.le_iff_toNat_le]

theorem isDigit_iff_range : c.isDigit = true ↔ 48 ≤ c.toNat ∧ c.toNat ≤ 57 := by
  simp [Char.isDigit, UInt32.le_iff_toNat_le]

theorem not_isLower_of_isDigit (h : c.isDigit = true) : ¬ c.isLower = true := by
  rw [isDigit_iff_range] at h
  rw [isLower_iff_range]
  omega

theorem not_isUpper_of_isDigit (h : c.isDigit = true) : ¬ c.isUpper = true := by
  rw [isDigit_iff_range] at h
  rw [isUpper_iff_range]
  omega

theorem constChar_of_isAlphanum (h : c.isAlphanum = true) : constChar c = c.toUpper :=
  if_pos h

theorem constChar_of_isAlpha (h : c.isAlpha = true) : constChar c = c.toUpper :=
  constChar_of_isAlphanum (by simp [Char.isAlphanum, h])

theorem constChar_of_isDigit (h : c.isDigit = true) : constChar c = c := by
  rw [constChar_of_isAlphanum (by simp [Char.isAlphanum, h]),
    Char.toUpper_eq_of_not_isLower (not_isLower_of_isDigit h)]

theorem constChar_of_not_isAlphanum (h : ¬ c.isAlphanum = true) : constChar c = '_' :=
  if_neg h

/-- A letter, a digit, or something else. -/
theorem isAlpha_or_isDigit_or_not (c : Char) :
    c.isAlpha = true ∨ c.isDigit = true ∨ ¬ c.isAlphanum = true := by
  cases ha : c.isAlpha with
  | true => exact .inl rfl
  | false =>
      cases hd : c.isDigit with
      | true => exact .inr (.inl rfl)
      | false => exact .inr (.inr (by simp [Char.isAlphanum, ha, hd]))

end

/-- A character that can be part of the name of a constant. -/
def IsConstChar (c : Char) : Prop :=
  c.isUpper = true ∨ c.isDigit = true ∨ c = '_'

/-- Each character becomes one that may stand in a constant. -/
theorem isConstChar_constChar (c : Char) : IsConstChar (constChar c) := by
  rcases isAlpha_or_isDigit_or_not c with h | h | h
  · rw [constChar_of_isAlpha h]
    exact .inl (by simpa using h)
  · rw [constChar_of_isDigit h]
    exact .inr (.inl h)
  · rw [constChar_of_not_isAlphanum h]
    exact .inr (.inr rfl)

theorem isDigit_constChar (c : Char) : (constChar c).isDigit = c.isDigit := by
  rw [Bool.eq_iff_iff]
  rcases isAlpha_or_isDigit_or_not c with h | h | h
  · have hupper : c.toUpper.isUpper = true := by simpa using h
    rw [constChar_of_isAlpha h]
    refine iff_of_false (fun hd => not_isUpper_of_isDigit hd hupper) (fun hd => ?_)
    rw [Char.isAlpha, Bool.or_eq_true] at h
    exact h.elim (not_isUpper_of_isDigit hd) (not_isLower_of_isDigit hd)
  · rw [constChar_of_isDigit h]
  · rw [constChar_of_not_isAlphanum h]
    exact iff_of_false (by decide) (fun hd => h (by simp [Char.isAlphanum, hd]))

theorem constChar_eq_underscore_iff {c : Char} : constChar c = '_' ↔ ¬ c.isAlphanum = true := by
  refine ⟨fun h halnum => ?_, constChar_of_not_isAlphanum⟩
  rcases isAlpha_or_isDigit_or_not c with ha | hd | hn
  · rw [constChar_of_isAlpha ha] at h
    have hupper : c.toUpper.isUpper = true := by simpa using ha
    rw [h] at hupper
    exact absurd hupper (by decide)
  · rw [constChar_of_isDigit hd] at h
    rw [h] at hd
    exact absurd hd (by decide)
  · exact hn halnum

/-- Two characters that look the same in the name of a constant: two letters or digits that
differ in case at most, or two other characters. -/
def CharAlike (c d : Char) : Prop :=
  c.isAlphanum = d.isAlphanum ∧ (c.isAlphanum = true → c.toUpper = d.toUpper)

/-- Two characters become the same exactly if they are alike. -/
theorem constChar_eq_iff {c d : Char} : constChar c = constChar d ↔ CharAlike c d := by
  unfold CharAlike
  by_cases hc : c.isAlphanum = true
  · by_cases hd : d.isAlphanum = true
    · simp [constChar, hc, hd]
    · rw [constChar_of_not_isAlphanum hd, constChar_eq_underscore_iff]
      simp [hc, hd]
  · rw [constChar_of_not_isAlphanum hc, eq_comm, constChar_eq_underscore_iff]
    simp [hc]

/-! ## Spread names -/

/-- The characters of a name, with an underscore in front of each word that begins with a
capital. -/
def spread (afterWord : Bool) : List Char → List Char
  | [] => []
  | c :: cs =>
    if c.isUpper && afterWord then '_' :: c :: spread (endsWord c) cs
    else c :: spread (endsWord c) cs

/-- The name in which only capitals and separators are left to be adjusted. -/
def spreadName (name : String) : List Char :=
  match spread false name.toList with
  | [] => ['_']
  | c :: cs => if c.isDigit then '_' :: c :: cs else c :: cs

/-- The marks between words can be put in first, and all characters converted then. -/
theorem constChars_eq_map_spread (afterWord : Bool) (cs : List Char) :
    constChars afterWord cs = (spread afterWord cs).map constChar := by
  induction cs generalizing afterWord with
  | nil => rfl
  | cons c cs ih =>
      rw [constChars, spread]
      split
      · simp [ih, constChar_of_not_isAlphanum (c := '_') (by decide)]
      · simp [ih]

theorem constName_eq_map_spreadName (name : String) :
    constName name = String.ofList ((spreadName name).map constChar) := by
  rw [constName, spreadName, constChars_eq_map_spread]
  cases spread false name.toList with
  | nil => rfl
  | cons c cs =>
      simp only [List.map_cons, isDigit_constChar]
      split
      · simp [constChar_of_not_isAlphanum (c := '_') (by decide)]
      · rfl

/-- Only capitals, digits and underscores stand in the name of a constant. -/
theorem isConstChar_of_mem_constName {name : String} {c : Char}
    (h : c ∈ (constName name).toList) : IsConstChar c := by
  rw [constName_eq_map_spreadName, String.toList_ofList, List.mem_map] at h
  obtain ⟨d, _, rfl⟩ := h
  exact isConstChar_constChar d

/-! ## Names that are alike -/

/-- Two names that agree, once they are spread, up to capitals and separators. -/
def Alike (a b : String) : Prop :=
  List.Forall₂ CharAlike (spreadName a) (spreadName b)

/-- Two links have the same constant exactly if their names are alike. -/
theorem constName_eq_iff_alike {a b : String} : constName a = constName b ↔ Alike a b := by
  rw [constName_eq_map_spreadName, constName_eq_map_spreadName, String.ofList_inj,
    ← List.forall₂_eq_eq_eq, List.forall₂_map_left_iff, List.forall₂_map_right_iff, Alike]
  simp only [constChar_eq_iff]

/-- Lower-case letters, digits and underscores. -/
def IsSnakeChar (c : Char) : Prop :=
  c.isLower = true ∨ c.isDigit = true ∨ c = '_'

/-- A name of lower-case letters, digits and underscores that begins with a letter. -/
def IsSnake (name : String) : Prop :=
  (∀ c ∈ name.toList, IsSnakeChar c) ∧ ∃ c, name.toList.head? = some c ∧ c.isLower = true

theorem IsSnakeChar.not_isUpper {c : Char} (h : IsSnakeChar c) : ¬ c.isUpper = true := by
  rcases h with h | h | rfl
  · exact Char.not_isUpper_of_isLower h
  · exact not_isUpper_of_isDigit h
  · decide

/-- Capitals are all that such a name loses. -/
theorem IsSnakeChar.toLower_constChar {c : Char} (h : IsSnakeChar c) :
    (constChar c).toLower = c := by
  have hself : c.toLower = c := Char.toLower_eq_of_not_isUpper h.not_isUpper
  rcases h with h | h | rfl
  · rw [constChar_of_isAlpha (by simp [Char.isAlpha, h]), Char.toLower_toUpper_eq_toLower, hself]
  · rw [constChar_of_isDigit h, hself]
  · decide

theorem spread_of_forall_isSnakeChar {afterWord : Bool} {cs : List Char}
    (h : ∀ c ∈ cs, IsSnakeChar c) : spread afterWord cs = cs := by
  induction cs generalizing afterWord with
  | nil => rfl
  | cons c cs ih =>
      obtain ⟨hc, hcs⟩ := List.forall_mem_cons.mp h
      rw [spread, ih hcs]
      simp [hc.not_isUpper]

theorem spreadName_of_isSnake {name : String} (h : IsSnake name) :
    spreadName name = name.toList := by
  obtain ⟨hchars, c, hc, hlower⟩ := h
  rw [spreadName, spread_of_forall_isSnakeChar hchars]
  cases hname : name.toList with
  | nil => simp [hname] at hc
  | cons c' cs =>
      rw [hname, List.head?_cons, Option.some.injEq] at hc
      subst hc
      have hdigit : ¬ c'.isDigit = true := fun hd => not_isLower_of_isDigit hd hlower
      simp [hdigit]

/-- The name of the link can be read off the name of its constant. -/
theorem toLower_constName_of_isSnake {name : String} (h : IsSnake name) :
    (constName name).toList.map Char.toLower = name.toList := by
  have hmap : name.toList.map (Char.toLower ∘ constChar) = name.toList.map id :=
    List.map_congr_left fun c hc => (h.1 c hc).toLower_constChar
  rw [constName_eq_map_spreadName, spreadName_of_isSnake h, String.toList_ofList, List.map_map,
    hmap, List.map_id]

/-- Names in snake case are told apart by their constants. -/
theorem constName_inj_of_isSnake {a b : String} (ha : IsSnake a) (hb : IsSnake b)
    (h : constName a = constName b) : a = b := by
  have hchars : a.toList = b.toList := by
    rw [← toLower_constName_of_isSnake ha, ← toLower_constName_of_isSnake hb, h]
  exact String.toList_inj.mp hchars

end VerifiedLinks
