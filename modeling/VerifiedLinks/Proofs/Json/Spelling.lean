import VerifiedLinks.Json.ReadError
import VerifiedLinks.Proofs.Json.Tokens

/-!
# The spelling of a value

Punctuation, words and strings are written in one way only (`Token.spelling?`).  Of
numbers that is not true, and none of the values that are written here holds one
(`Value.HasSpelling`).

A text is made of such tokens with any spaces between them (`Token.Spaced`), and
cutting it gives back the tokens (`Token.Spaced.cut`).  Strings are the only hard case:
each character has to be scanned as itself, whether it is escaped or not.

The text that `Value.write` makes is the one without spaces (`Value.spaced_write`).
Reading any other text of the same tokens comes to the same (`readText_of_spaced`).
-/

namespace VerifiedLinks.Json

namespace Token

/-! ## Strings -/

theorem scanText_quote (units : List Nat) (cs : List Char) :
    scanText units ('"' :: cs) = .ok (units, cs) := by
  rw [scanText.eq_def]
  rfl

theorem scanText_plain (units : List Nat) {c : Char} (cs : List Char) (hq : c ≠ '"')
    (hb : c ≠ '\\') (hc : ¬ c.toNat < 0x20) :
    scanText units (c :: cs) = scanText (c.toNat :: units) cs := by
  rw [scanText.eq_def]
  simp only [hq, hb, hc, if_false]

theorem scanText_escape (units : List Nat) {e : Char} {u : Nat} (cs : List Char)
    (h : escapedUnit? e = some u) :
    scanText units ('\\' :: e :: cs) = scanText (u :: units) cs := by
  have hu : e ≠ 'u' := by
    rintro rfl
    cases h
  rw [scanText.eq_def]
  simp [hu, h]

theorem scanText_hex (units : List Nat) {h₀ h₁ h₂ h₃ : Char} {u : Nat} (cs : List Char)
    (h : hexUnit? h₀ h₁ h₂ h₃ = some u) :
    scanText units ('\\' :: 'u' :: h₀ :: h₁ :: h₂ :: h₃ :: cs) = scanText (u :: units) cs := by
  rw [scanText.eq_def]
  simp [h]

theorem hexDigit?_digitChar : ∀ n < 16, hexDigit? (Nat.digitChar n) = some n := by decide

theorem hexUnit?_control {n : Nat} (h : n < 0x20) :
    hexUnit? '0' '0' (Nat.digitChar (n / 16)) (Nat.digitChar (n % 16)) = some n := by
  have hhigh := hexDigit?_digitChar (n / 16) (by omega)
  have hlow := hexDigit?_digitChar (n % 16) (by omega)
  have hzero : hexDigit? '0' = some 0 := by decide
  simp only [hexUnit?, hhigh, hlow, hzero, Option.some.injEq]
  omega

/-- A character is scanned as the unit it stands for. -/
theorem scanText_escapeChar (units : List Nat) (c : Char) (cs : List Char) :
    scanText units (escapeChar c ++ cs) = scanText (c.toNat :: units) cs := by
  unfold escapeChar
  repeat' split
  next h => subst h; exact scanText_escape units cs rfl
  next h => subst h; exact scanText_escape units cs rfl
  next h => subst h; exact scanText_escape units cs rfl
  next h => subst h; exact scanText_escape units cs rfl
  next h => subst h; exact scanText_escape units cs rfl
  next h => subst h; exact scanText_escape units cs rfl
  next h => subst h; exact scanText_escape units cs rfl
  next h => exact scanText_hex units cs (hexUnit?_control h)
  next hq hb _ _ _ _ _ hc => exact scanText_plain units cs hq hb hc

/-- What is written for a text is read as the code points of the text. -/
theorem scanText_escaped (units : List Nat) (cs rest : List Char) :
    scanText units (cs.flatMap escapeChar ++ '"' :: rest) =
      .ok ((cs.map Char.toNat).reverse ++ units, rest) := by
  induction cs generalizing units with
  | nil => exact scanText_quote units rest
  | cons c cs ih =>
      rw [List.flatMap_cons, List.append_assoc, scanText_escapeChar, ih]
      simp

/-- No character is one half of a surrogate pair. -/
theorem not_isLead_toNat (c : Char) : isLead c.toNat = false := by
  have hc : c.toNat.isValidChar := c.valid
  rw [Nat.isValidChar] at hc
  rw [isLead, Bool.and_eq_false_iff, decide_eq_false_iff_not, decide_eq_false_iff_not]
  omega

theorem not_isTrail_toNat (c : Char) : isTrail c.toNat = false := by
  have hc : c.toNat.isValidChar := c.valid
  rw [Nat.isValidChar] at hc
  rw [isTrail, Bool.and_eq_false_iff, decide_eq_false_iff_not, decide_eq_false_iff_not]
  omega

/-- No character is half of a surrogate pair. -/
theorem joinUnits_toNat (cs chars : List Char) :
    joinUnits chars (cs.map Char.toNat) = some (cs.reverse ++ chars) := by
  induction cs generalizing chars with
  | nil => rfl
  | cons c cs ih =>
      rw [List.map_cons, joinUnits.eq_def]
      simp only [not_isTrail_toNat, not_isLead_toNat, Char.ofNat_toNat, ih]
      simp

/-! ## Tokens -/

/-- How punctuation, a word or a string is written.  A number can be written in many
ways, and there is no way to write what breaks off. -/
def spelling? : Token → Option (List Char)
  | openObject => some ['{']
  | closeObject => some ['}']
  | openArray => some ['[']
  | closeArray => some [']']
  | colon => some [':']
  | comma => some [',']
  | null => some "null".toList
  | bool true => some "true".toList
  | bool false => some "false".toList
  | text (some s) => some (writeText s).toList
  | _ => none

/-- There is one way to write the token. -/
def HasSpelling (t : Token) : Prop := t.spelling?.isSome = true

instance (t : Token) : Decidable t.HasSpelling :=
  inferInstanceAs (Decidable (t.spelling?.isSome = true))

/-- A text that is written is read back. -/
theorem lexeme_text (s : String) (cs : List Char) :
    lexeme '"' (s.toList.flatMap escapeChar ++ '"' :: cs) = (text (some s), cs) := by
  have hscan := scanText_escaped [] s.toList cs
  have hjoin := joinUnits_toNat s.toList.reverse []
  rw [List.map_reverse] at hjoin
  simp [lexeme, punctuation?, scanScalar, hscan, hjoin, bind, Except.bind]

/-- The first character of a spelling tells the token, whatever follows. -/
theorem lexeme_spelling {t : Token} {w : List Char} (h : t.spelling? = some w) (cs : List Char) :
    ∃ c w', w = c :: w' ∧ isSpace c = false ∧ lexeme c (w' ++ cs) = (t, cs) := by
  cases t with
  | text content =>
      cases content with
      | none => cases h
      | some s =>
          refine ⟨'"', s.toList.flatMap escapeChar ++ ['"'], ?_, rfl, ?_⟩
          · rw [← Option.some.inj h]
            simp [writeText]
          · rw [List.append_assoc]
            exact lexeme_text s cs
  | bool b =>
      cases b with
      | true => cases h; exact ⟨_, _, rfl, rfl, rfl⟩
      | false => cases h; exact ⟨_, _, rfl, rfl, rfl⟩
  | number value => cases h
  | badText b => cases h
  | bad b => cases h
  | _ => cases h; exact ⟨_, _, rfl, rfl, rfl⟩

/-- A token that is spelled out is cut off. -/
theorem cut_spelling {t : Token} {w : List Char} (h : t.spelling? = some w) (cs : List Char) :
    cutOnto [] (w ++ cs) = t :: cutOnto [] cs := by
  obtain ⟨c, w', rfl, hspace, hlex⟩ := lexeme_spelling h cs
  rw [List.cons_append, cutOnto_lexeme (by simp [hspace]), hlex, cutOnto_eq]
  rfl

/-- The text consists of these tokens, with any spaces in front of, between and behind
them. -/
inductive Spaced : List Token → List Char → Prop
  | nil : Spaced [] []
  | space {ts : List Token} {c : Char} {cs : List Char} :
      isSpace c = true → Spaced ts cs → Spaced ts (c :: cs)
  | token {t : Token} {w : List Char} {ts : List Token} {cs : List Char} :
      t.spelling? = some w → Spaced ts cs → Spaced (t :: ts) (w ++ cs)

theorem Spaced.one {t : Token} {w : List Char} (h : t.spelling? = some w) : Spaced [t] w := by
  have ht := Spaced.token h .nil
  rwa [List.append_nil] at ht

theorem Spaced.append {ts us : List Token} {cs ds : List Char} (h : Spaced ts cs)
    (h' : Spaced us ds) : Spaced (ts ++ us) (cs ++ ds) := by
  induction h with
  | nil => exact h'
  | space hc _ ih => exact .space hc ih
  | token ht _ ih =>
      rw [List.append_assoc]
      exact .token ht ih

/-- White space between tokens is of no importance. -/
theorem Spaced.cut {ts : List Token} {cs : List Char} (h : Spaced ts cs) :
    cutOnto [] cs = ts := by
  induction h with
  | nil => rw [cutOnto_nil]; rfl
  | space hc _ ih => rw [cutOnto_space hc, ih]
  | token ht _ ih => rw [cut_spelling ht, ih]

theorem Spaced.intercalate {α : Type} {f : α → List Token} {g : α → List Char} {xs : List α}
    (h : ∀ x ∈ xs, Spaced (f x) (g x)) :
    Spaced ([comma].intercalate (xs.map f)) ([','].intercalate (xs.map g)) := by
  have hflat : ∀ ys : List α, (∀ y ∈ ys, Spaced (f y) (g y)) →
      Spaced ((ys.map f).flatMap (comma :: ·)) ((ys.map g).flatMap (',' :: ·)) := by
    intro ys hys
    induction ys with
    | nil => exact .nil
    | cons y ys ih =>
        obtain ⟨hy, hys⟩ := List.forall_mem_cons.mp hys
        have hcomma : Spaced [comma] [','] := .one rfl
        exact (hcomma.append hy).append (ih hys)
  cases xs with
  | nil => exact .nil
  | cons x xs =>
      obtain ⟨hx, hxs⟩ := List.forall_mem_cons.mp h
      rw [List.map_cons, List.map_cons, intercalate_cons, intercalate_cons]
      exact hx.append (hflat xs hxs)

/-- Some tokens with the same spaces in front of each. -/
def spaceOut (spaces : List Char) (ts : List Token) : List Char :=
  ts.flatMap fun t => spaces ++ t.spelling?.getD []

/-- The same white space may stand in front of every token. -/
theorem spaced_spaceOut {spaces : List Char} {ts : List Token}
    (hspaces : ∀ c ∈ spaces, isSpace c = true) (hts : ∀ t ∈ ts, t.HasSpelling) :
    Spaced ts (spaceOut spaces ts) := by
  have hspace {us : List Token} {cs : List Char} (h : Spaced us cs) : Spaced us (spaces ++ cs) := by
    induction spaces with
    | nil => exact h
    | cons c spaces ih =>
        obtain ⟨hc, hspaces⟩ := List.forall_mem_cons.mp hspaces
        exact .space hc (ih hspaces)
  induction ts with
  | nil => exact .nil
  | cons t ts ih =>
      obtain ⟨ht, hts⟩ := List.forall_mem_cons.mp hts
      obtain ⟨w, hw⟩ := Option.isSome_iff_exists.mp ht
      rw [spaceOut, List.flatMap_cons, hw, List.append_assoc]
      exact hspace (.token hw (ih hts))

end Token

/-! ## Values -/

theorem forall_mem_intercalate {α : Type} {P : α → Prop} {sep : α} (hsep : P sep)
    {xss : List (List α)} :
    (∀ x ∈ [sep].intercalate xss, P x) ↔ ∀ xs ∈ xss, ∀ x ∈ xs, P x := by
  cases xss with
  | nil => simp [List.intercalate_nil]
  | cons xs xss =>
      rw [intercalate_cons, List.forall_mem_cons]
      simp only [List.mem_append, List.mem_flatMap, List.mem_cons]
      constructor
      · intro h
        exact ⟨fun x hx => h x (.inl hx), fun ys hys x hx => h x (.inr ⟨ys, hys, .inr hx⟩)⟩
      · rintro ⟨hxs, hxss⟩ x (hx | ⟨ys, hys, rfl | hx⟩)
        · exact hxs x hx
        · exact hsep
        · exact hxss ys hys x hx

namespace Value

/-- Every token of the value has its spelling, so there are no numbers in it. -/
def HasSpelling (v : Value) : Prop := ∀ t ∈ v.tokens, t.HasSpelling

instance (v : Value) : Decidable v.HasSpelling :=
  inferInstanceAs (Decidable (∀ t ∈ v.tokens, t.HasSpelling))

theorem hasSpelling_text (s : String) : (text s).HasSpelling :=
  List.forall_mem_singleton.mpr rfl

theorem hasSpelling_array_iff {vs : List Value} :
    (array vs).HasSpelling ↔ ∀ v ∈ vs, v.HasSpelling := by
  have hopen : Token.openArray.HasSpelling := rfl
  have hcomma : Token.comma.HasSpelling := rfl
  have hclose : Token.closeArray.HasSpelling := rfl
  simp only [HasSpelling, tokens, itemsTokens_eq_map, List.forall_mem_cons, List.forall_mem_append,
    forall_mem_intercalate hcomma, List.forall_mem_map]
  simp [hopen, hclose]

theorem hasSpelling_object_iff {ms : List (String × Value)} :
    (object ms).HasSpelling ↔ ∀ m ∈ ms, m.2.HasSpelling := by
  have hopen : Token.openObject.HasSpelling := rfl
  have hname : ∀ s, (Token.text (some s)).HasSpelling := fun s => rfl
  have hcolon : Token.colon.HasSpelling := rfl
  have hcomma : Token.comma.HasSpelling := rfl
  have hclose : Token.closeObject.HasSpelling := rfl
  simp only [HasSpelling, tokens, membersTokens_eq_map, List.forall_mem_cons,
    List.forall_mem_append, forall_mem_intercalate hcomma, List.forall_mem_map, memberTokens]
  simp [hopen, hname, hcolon, hclose]

/-- A value is written as its tokens without white space. -/
theorem spaced_write {v : Value} (h : v.HasSpelling) : Token.Spaced v.tokens v.write.toList := by
  induction v with
  | null => exact .one rfl
  | bool b =>
      cases b with
      | true => exact .one rfl
      | false => exact .one rfl
  | number n =>
      have hnone := h _ (List.mem_singleton_self _)
      cases hnone
  | text s => exact .one rfl
  | array items ih =>
      rw [hasSpelling_array_iff] at h
      have hopen : Token.Spaced [.openArray] ['['] := .one rfl
      have hitems := Token.Spaced.intercalate fun v hv => ih v hv (h v hv)
      have hclose : Token.Spaced [.closeArray] [']'] := .one rfl
      simpa [tokens, itemsTokens_eq_map, write, writeItems_eq_map, String.toList_intercalate,
        Function.comp_def] using (hopen.append hitems).append hclose
  | object members ih =>
      rw [hasSpelling_object_iff] at h
      have hmembers : ∀ m ∈ members,
          Token.Spaced (memberTokens m) (writeText m.1 ++ ":" ++ m.2.write).toList := by
        intro m hm
        have hname : Token.Spaced [.text (some m.1)] (writeText m.1).toList := .one rfl
        have hcolon : Token.Spaced [.colon] [':'] := .one rfl
        simpa [memberTokens] using (hname.append hcolon).append (ih m hm (h m hm))
      have hopen : Token.Spaced [.openObject] ['{'] := .one rfl
      have hclose : Token.Spaced [.closeObject] ['}'] := .one rfl
      simpa [tokens, membersTokens_eq_map, write, writeMembers_eq_map,
        String.toList_intercalate, Function.comp_def] using
        (hopen.append (Token.Spaced.intercalate hmembers)).append hclose

end Value

/-- Reading a text is reading the draft of the value it writes. -/
theorem readText_of_spaced {α : Type} (read : Draft → Except ReadError α) {v : Value}
    {s : String} (h : Token.Spaced v.tokens s.toList) : readText read s = read v.draft := by
  have htokens := Draft.ofTokens_tokens v []
  rw [List.append_nil] at htokens
  rw [readText, Token.ofText, h.cut, htokens]
  change (read v.draft >>= fun a => .ok a) = read v.draft
  cases read v.draft with
  | ok a => rfl
  | error e => rfl

end VerifiedLinks.Json
