/-!
# Where a text ends

When texts are written one behind the other, it may be said afterwards where one of them ends.
For a run of characters of one kind it can, if what follows begins with a character of another
kind or is empty (`Text.StopsAt`).  Then the run and what follows are both determined by the
whole (`append_inj_of_all`).

Names are such runs if they are *plain*, without spaces and parentheses (`Text.IsPlain`).
-/

namespace VerifiedLinks.Text

/-! ## Runs of characters -/

/-- The text does not begin with a character of this kind. -/
def StopsAt (p : Char → Bool) (x : String) : Prop :=
  ∀ c ∈ x.toList.head?, p c = false

theorem stopsAt_empty {p : Char → Bool} : StopsAt p "" := by
  simp [StopsAt]

/-- The first character decides. -/
theorem stopsAt_append {p : Char → Bool} {s x : String} {c : Char} (h : s.toList.head? = some c) :
    StopsAt p (s ++ x) ↔ p c = false := by
  simp [StopsAt, h]

theorem StopsAt.append {p : Char → Bool} {s x : String} (hs : StopsAt p s) (hx : StopsAt p x) :
    StopsAt p (s ++ x) := by
  intro c hc
  rw [String.toList_append] at hc
  cases hchars : s.toList with
  | nil =>
      rw [hchars] at hc
      exact hx c hc
  | cons d cs =>
      rw [hchars] at hc
      exact hs c (hchars ▸ hc)

/-- A text stops wherever fewer characters go on. -/
theorem StopsAt.mono {p q : Char → Bool} (hpq : ∀ c, p c = false → q c = false) {x : String}
    (h : StopsAt p x) : StopsAt q x :=
  fun c hc => hpq c (h c hc)

/-- A run of characters of one kind is told apart from what follows it. -/
theorem append_inj_of_all {p : Char → Bool} {s t x y : String} (hs : ∀ c ∈ s.toList, p c = true)
    (ht : ∀ c ∈ t.toList, p c = true) (hx : StopsAt p x) (hy : StopsAt p y)
    (h : s ++ x = t ++ y) : s = t ∧ x = y := by
  have htake {s x : String} (hs : ∀ c ∈ s.toList, p c = true) (hx : StopsAt p x) :
      (s ++ x).toList.takeWhile p = s.toList := by
    have hnil : x.toList.takeWhile p = [] := by
      cases hchars : x.toList with
      | nil => rfl
      | cons c cs =>
          have hc : p c = false := hx c (by rw [hchars]; rfl)
          rw [List.takeWhile_cons, hc]
          rfl
    rw [String.toList_append, List.takeWhile_append_of_pos hs, hnil, List.append_nil]
  have hst : s = t := by
    rw [← String.toList_inj, ← htake hs hx, ← htake ht hy, h]
  subst hst
  exact ⟨rfl, (String.append_right_inj s).mp h⟩

/-! ## Names -/

/-- The character is neither a space nor a parenthesis. -/
def continuesName (c : Char) : Bool :=
  !(c == ' ' || c == '(' || c == ')')

/-- No space and no parenthesis is in the text. -/
def IsPlain (s : String) : Prop :=
  ' ' ∉ s.toList ∧ '(' ∉ s.toList ∧ ')' ∉ s.toList

instance (s : String) : Decidable (IsPlain s) :=
  inferInstanceAs (Decidable (_ ∧ _ ∧ _))

theorem IsPlain.continuesName {s : String} (h : IsPlain s) :
    ∀ c ∈ s.toList, continuesName c = true := by
  intro c hc
  have hne {d : Char} (hd : d ∉ s.toList) : c ≠ d := by
    rintro rfl
    exact hd hc
  simp [Text.continuesName, hne h.1, hne h.2.1, hne h.2.2]

theorem not_isAlpha_of_not_continuesName {c : Char} (h : continuesName c = false) :
    c.isAlpha = false := by
  simp only [continuesName, Bool.not_eq_false', Bool.or_eq_true, beq_iff_eq] at h
  rcases h with (rfl | rfl) | rfl <;> rfl

end VerifiedLinks.Text
