import VerifiedLinks.Proofs.Json.Spelling
import VerifiedLinks.Text.Quoted

/-!
# Reading quoted text

Quoted text is read one character at a time, from the quote at its front to the first quote
that no backslash stands before (`Quoted.read`).  A backslash stands before a quote, a
backslash, one of four letters and digits for the common controls, or before a `u` with one to
six hexadecimal digits between braces.  Every other character stands for itself.

What was quoted is read back whatever stands behind it (`Quoted.read_quoted`).  So quoted text
cannot be taken for other text, and its end is known without a look at what follows
(`quoted_append_inj`).
-/

namespace VerifiedLinks.Text

namespace Quoted

/-! ## The reader -/

/-- How far the reader has come with one character. -/
inductive Progress where
  /-- No part of it is read. -/
  | start
  /-- Behind the backslash. -/
  | backslash
  /-- Behind the backslash and a `u`. -/
  | brace
  /-- Between the braces, with so many digits and their value. -/
  | digits (count value : Nat)

/-- The character that is meant by one character behind a backslash. -/
def escaped? (c : Char) : Option Char :=
  [('"', '"'), ('\\', '\\'), ('n', '\n'), ('r', '\r'), ('t', '\t'), ('0', '\x00')].lookup c

/-- One more character in front of what is read. -/
def prepend (c : Char) : Option (List Char × List Char) → Option (List Char × List Char) :=
  Option.map (Prod.map (c :: ·) id)

/-- The characters up to the closing quote, and what stands behind it. -/
def readFrom : Progress → List Char → Option (List Char × List Char)
  | _, [] => none
  | .start, c :: cs =>
    if c = '"' then some ([], cs)
    else if c = '\\' then readFrom .backslash cs
    else prepend c (readFrom .start cs)
  | .backslash, c :: cs =>
    match escaped? c with
    | some d => prepend d (readFrom .start cs)
    | none => if c = 'u' then readFrom .brace cs else none
  | .brace, c :: cs => if c = '{' then readFrom (.digits 0 0) cs else none
  | .digits count value, c :: cs =>
    if c = '}' then
      if 0 < count ∧ value.isValidChar then prepend (Char.ofNat value) (readFrom .start cs)
      else none
    else
      match Json.Token.hexDigit? c with
      | some d => if count < 6 then readFrom (.digits (count + 1) (value * 16 + d)) cs else none
      | none => none

/-- The text that a quoted text at the front stands for, and what stands behind it. -/
def read : List Char → Option (List Char × List Char)
  | [] => none
  | c :: cs => if c = '"' then readFrom .start cs else none

/-! ## What was quoted is read back -/

theorem readFrom_digit {n count value : Nat} (cs : List Char) (hn : n < 16) (hcount : count < 6) :
    readFrom (.digits count value) (n.digitChar :: cs) =
      readFrom (.digits (count + 1) (value * 16 + n)) cs := by
  have hclosed : ∀ n < 16, n.digitChar ≠ '}' := by decide
  rw [readFrom, if_neg (hclosed n hn), Json.Token.hexDigit?_digitChar n hn]
  exact if_pos hcount

/-- The digits of a number are read as that number.  The last one is read behind the digits of
the sixteenth part. -/
theorem readFrom_toDigits {n : Nat} (cs : List Char) (h : (Nat.toDigits 16 n).length ≤ 6) :
    readFrom (.digits 0 0) (Nat.toDigits 16 n ++ cs) =
      readFrom (.digits (Nat.toDigits 16 n).length n) cs := by
  induction n using Nat.strongRecOn generalizing cs with
  | ind n ih =>
      by_cases hn : n < 16
      · rw [Nat.toDigits_of_lt_base hn]
        show readFrom (.digits 0 0) (n.digitChar :: cs) = readFrom (.digits 1 n) cs
        rw [readFrom_digit cs hn (Nat.zero_lt_succ 5), Nat.zero_mul, Nat.zero_add, Nat.zero_add]
      · have hlast : n % 16 < 16 := Nat.mod_lt n (by decide)
        rw [Nat.toDigits_of_base_le (by decide) (Nat.le_of_not_lt hn), List.length_append] at h ⊢
        have hshort : (Nat.toDigits 16 (n / 16)).length < 6 := h
        rw [List.append_assoc, ih (n / 16) (by omega) _ (Nat.le_of_lt hshort),
          List.singleton_append, readFrom_digit cs hlast hshort, Nat.div_add_mod']
        rfl

/-- Six digits are enough for every character. -/
theorem length_toDigits_le (c : Char) : (Nat.toDigits 16 c.toNat).length ≤ 6 := by
  rw [Nat.length_toDigits_le_iff (by decide) (by decide)]
  have hvalid : c.toNat.isValidChar := c.valid
  have hlt : c.toNat < 0x110000 := by
    rcases hvalid with h | ⟨-, h⟩ <;> omega
  omega

/-- The escape of a code point is read back. -/
theorem readFrom_codePoint (c : Char) (cs : List Char) :
    readFrom .start (codePoint c ++ cs) = prepend c (readFrom .start cs) := by
  have hpos : 0 < (Nat.toDigits 16 c.toNat).length := Nat.length_toDigits_pos
  have hvalid : c.toNat.isValidChar := c.valid
  show readFrom (.digits 0 0) (Nat.toDigits 16 c.toNat ++ ['}'] ++ cs) = _
  rw [List.append_assoc, readFrom_toDigits _ (length_toDigits_le c), List.singleton_append,
    readFrom, if_pos rfl, if_pos ⟨hpos, hvalid⟩, Char.ofNat_toNat]

theorem readFrom_escaped {c d : Char} (cs : List Char) (h : escaped? c = some d) :
    readFrom .start ('\\' :: c :: cs) = prepend d (readFrom .start cs) := by
  show (match escaped? c with | some d => _ | none => _) = _
  rw [h]

theorem readFrom_plain {c : Char} (cs : List Char) (hquote : c ≠ '"') (hbackslash : c ≠ '\\') :
    readFrom .start (c :: cs) = prepend c (readFrom .start cs) := by
  rw [readFrom, if_neg hquote, if_neg hbackslash]

/-- The three ways in which a character is written between quotes. -/
theorem encodeChar_cases (c : Char) :
    (∃ e, escaped? e = some c ∧ encodeChar c = ['\\', e]) ∨
    (c ≠ '"' ∧ c ≠ '\\' ∧ standsAlone c = true ∧ encodeChar c = [c]) ∨
    encodeChar c = codePoint c := by
  fun_cases encodeChar c with
  | case1 h => exact .inl ⟨'"', congrArg some h.symm, rfl⟩
  | case2 _ h => exact .inl ⟨'\\', congrArg some h.symm, rfl⟩
  | case3 _ _ h => exact .inl ⟨'n', congrArg some h.symm, rfl⟩
  | case4 _ _ _ h => exact .inl ⟨'r', congrArg some h.symm, rfl⟩
  | case5 _ _ _ _ h => exact .inl ⟨'t', congrArg some h.symm, rfl⟩
  | case6 _ _ _ _ _ h => exact .inl ⟨'0', congrArg some h.symm, rfl⟩
  | case7 hquote hbackslash _ _ _ _ hc => exact .inr (.inl ⟨hquote, hbackslash, hc, rfl⟩)
  | case8 => exact .inr (.inr rfl)

/-- Every character is read back from its code. -/
theorem readFrom_encodeChar (c : Char) (cs : List Char) :
    readFrom .start (encodeChar c ++ cs) = prepend c (readFrom .start cs) := by
  rcases encodeChar_cases c with ⟨e, he, hc⟩ | ⟨hquote, hbackslash, -, hc⟩ | hc
  · rw [hc]
    exact readFrom_escaped cs he
  · rw [hc]
    exact readFrom_plain cs hquote hbackslash
  · rw [hc]
    exact readFrom_codePoint c cs

/-- Every text is read back from its code. -/
theorem readFrom_encode (cs rest : List Char) :
    readFrom .start (encode cs ++ '"' :: rest) = some (cs, rest) := by
  induction cs with
  | nil => rfl
  | cons c cs ih =>
      rw [encode_cons, List.append_assoc, readFrom_encodeChar, ih]
      rfl

/-- What was quoted is read back, and so is what stands behind it. -/
theorem read_quoted (s x : String) : read (quoted s ++ x).toList = some (s.toList, x.toList) := by
  have htext : (quoted s ++ x).toList = '"' :: (encode s.toList ++ '"' :: x.toList) := by
    simp [quoted]
  rw [htext]
  exact readFrom_encode s.toList x.toList

end Quoted

theorem head?_quoted (s : String) : (quoted s).toList.head? = some '"' := by
  simp [quoted]

/-- Quoted text is told apart from all that follows it. -/
theorem quoted_append_inj {s t x y : String} (h : quoted s ++ x = quoted t ++ y) :
    s = t ∧ x = y := by
  have hread : some (s.toList, x.toList) = some (t.toList, y.toList) := by
    rw [← Quoted.read_quoted, ← Quoted.read_quoted, h]
  obtain ⟨hvalue, hrest⟩ := Prod.mk.inj (Option.some.inj hread)
  exact ⟨String.toList_inj.mp hvalue, String.toList_inj.mp hrest⟩

end VerifiedLinks.Text
