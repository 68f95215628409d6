import VerifiedLinks.Json.Number
import VerifiedLinks.Result

/-!
# Tokens

A JSON text is cut into tokens: punctuation, the three words, numbers and texts,
with spaces, tabs and line ends between them.  Cutting never fails.  Where the text
stops being JSON, the list ends in a token that says so.

A text can be *read*, or merely *skipped* where nobody asks for its content.
Skipping is more lenient: a number beyond the largest floating-point number is
skipped, as is half of a surrogate pair in a string.  So a token can lack the
value that reading needs, and a place where the text breaks off holds two
faults, one for each use (`Break`).

`length_lexeme_le` says that a token takes characters off the text and adds none,
which is why cutting ends.
-/

namespace VerifiedLinks.Json

/-- Why a text is not JSON. -/
inductive Fault where
  /-- The text ends too early. -/
  | cutShort
  /-- The text goes on in a way that JSON does not allow. -/
  | malformed
deriving DecidableEq

/-- A place where a text stops being JSON. -/
structure Break where
  /-- The fault that is found by reading. -/
  read : Fault
  /-- The fault that is found by skipping. -/
  skip : Fault
deriving DecidableEq

/-- A break that reading and skipping see alike. -/
def Break.both (f : Fault) : Break := ⟨f, f⟩

/-- The smallest part of a JSON text. -/
inductive Token where
  | openObject | closeObject | openArray | closeArray | colon | comma
  | null
  | bool (b : Bool)
  /-- A number, with its value unless it is too large. -/
  | number (value : Option Number)
  /-- A string, with its content unless half of a surrogate pair stands alone. -/
  | text (content : Option String)
  /-- A string that breaks off. -/
  | badText (b : Break)
  /-- Anything else that breaks off. -/
  | bad (b : Break)

namespace Token

/-! ## Strings

The content of a string is first a list of *units*, newest first: code points, in
which an escaped surrogate stands for itself. -/

/-- The first half of a surrogate pair. -/
def isLead (u : Nat) : Bool := 0xD800 ≤ u && u < 0xDC00

/-- The second half of a surrogate pair. -/
def isTrail (u : Nat) : Bool := 0xDC00 ≤ u && u < 0xE000

/-- The code point of a surrogate pair. -/
def pairedUnit (lead trail : Nat) : Nat :=
  0x10000 + (lead - 0xD800) * 0x400 + (trail - 0xDC00)

/-- The characters of some units, newest first, in front of others, unless half of
a pair stands alone. -/
def joinUnits (chars : List Char) : List Nat → Option (List Char)
  | [] => some chars
  | u :: us =>
    if isTrail u then
      match us with
      | v :: vs => if isLead v then joinUnits (Char.ofNat (pairedUnit v u) :: chars) vs else none
      | [] => none
    else if isLead u then none
    else joinUnits (Char.ofNat u :: chars) us

/-- The units without a first half that may still be waiting for its second. -/
def settledUnits : List Nat → List Nat
  | [] => []
  | u :: us => if isLead u then us else u :: us

/-- The break where a string with these units ends.  If half of a pair stands
alone, reading has already found that. -/
def brokenText (units : List Nat) (f : Fault) : Break :=
  ⟨if (joinUnits [] (settledUnits units)).isSome then f else .malformed, f⟩

/-- The value of a hexadecimal digit. -/
def hexDigit? (c : Char) : Option Nat :=
  if c.isDigit then some (c.toNat - '0'.toNat)
  else if 'a' ≤ c ∧ c ≤ 'f' then some (10 + c.toNat - 'a'.toNat)
  else if 'A' ≤ c ∧ c ≤ 'F' then some (10 + c.toNat - 'A'.toNat)
  else none

/-- The unit that four hexadecimal digits write. -/
def hexUnit? (a b c d : Char) : Option Nat :=
  match hexDigit? a, hexDigit? b, hexDigit? c, hexDigit? d with
  | some a, some b, some c, some d => some (((a * 16 + b) * 16 + c) * 16 + d)
  | _, _, _, _ => none

/-- The unit that one character writes behind a backslash. -/
def escapedUnit? (c : Char) : Option Nat :=
  if c = '"' then some 0x22
  else if c = '\\' then some 0x5C
  else if c = '/' then some 0x2F
  else if c = 'b' then some 0x08
  else if c = 'f' then some 0x0C
  else if c = 'n' then some 0x0A
  else if c = 'r' then some 0x0D
  else if c = 't' then some 0x09
  else none

/-- The number of bytes of a text. -/
def byteCount (cs : List Char) : Nat :=
  cs.foldl (fun n c => n + c.utf8Size) 0

/-- The units of a string up to its closing quote, with what follows. -/
def scanText (units : List Nat) : List Char → Except Break (List Nat × List Char)
  | [] => .error (brokenText units .cutShort)
  | c :: cs =>
    if c = '"' then .ok (units, cs)
    else if c = '\\' then
      match cs with
      | [] => .error (brokenText units .cutShort)
      | e :: cs =>
        if e = 'u' then
          match cs with
          | h₀ :: h₁ :: h₂ :: h₃ :: cs =>
            match hexUnit? h₀ h₁ h₂ h₃ with
            | some u => scanText (u :: units) cs
            | none => .error (brokenText units .malformed)
          | short =>
            .error (brokenText units (if byteCount short < 4 then .cutShort else .malformed))
        else
          match escapedUnit? e with
          | some u => scanText (u :: units) cs
          | none => .error (brokenText units .malformed)
    else if c.toNat < 0x20 then .error (brokenText units .malformed)
    else scanText (c.toNat :: units) cs

/-! ## Numbers -/

/-- The break where a digit is missing in front of the given text. -/
def missingDigit : List Char → Break
  | [] => ⟨.cutShort, .malformed⟩
  | _ => .both .malformed

/-- One digit or more, with what follows. -/
def scanDigits (cs : List Char) : Except Break (List Char × List Char) :=
  match cs.takeWhile Char.isDigit with
  | [] => .error (missingDigit cs)
  | ds => .ok (ds, cs.dropWhile Char.isDigit)

/-- The digits in front of the point.  Only a zero that stands alone comes first. -/
def scanWhole (cs : List Char) : Except Break (List Char × List Char) := do
  let (ds, cs) ← scanDigits cs
  match ds with
  | '0' :: _ :: _ => .error (.both .malformed)
  | _ => .ok (ds, cs)

/-- The digits after the point, if there is a point. -/
def scanFraction : List Char → Except Break (Option (List Char) × List Char)
  | '.' :: cs => do
    let (ds, cs) ← scanDigits cs
    .ok (some ds, cs)
  | cs => .ok (none, cs)

/-- A sign that may be left out: whether it is a minus, and what follows. -/
def scanSign : List Char → Bool × List Char
  | '-' :: cs => (true, cs)
  | '+' :: cs => (false, cs)
  | cs => (false, cs)

/-- The power of ten, if there is one. -/
def scanPower : List Char → Except Break (Option Int × List Char)
  | [] => .ok (none, [])
  | c :: cs =>
    if c = 'e' ∨ c = 'E' then do
      let (negative, cs) := scanSign cs
      let (ds, cs) ← scanDigits cs
      let n : Nat := ds.foldl (fun n c => 10 * n + digitValue c) 0
      .ok (some (if negative then -n else n), cs)
    else .ok (none, c :: cs)

/-- A number behind its sign. -/
def scanNumber (negative : Bool) (cs : List Char) :
    Except Break (Option Number × List Char) := do
  let (whole, cs) ← scanWhole cs
  let (fraction, cs) ← scanFraction cs
  let (power, cs) ← scanPower cs
  .ok ((Numeral.of negative whole fraction power).number?, cs)

/-! ## Tokens -/

/-- What is left after the given letters. -/
def scanWord : List Char → List Char → Except Break (List Char)
  | [], cs => .ok cs
  | _ :: _, [] => .error (.both .cutShort)
  | w :: ws, c :: cs => if c = w then scanWord ws cs else .error (.both .malformed)

/-- The token that a character is by itself. -/
def punctuation? (c : Char) : Option Token :=
  if c = '{' then some openObject
  else if c = '}' then some closeObject
  else if c = '[' then some openArray
  else if c = ']' then some closeArray
  else if c = ':' then some colon
  else if c = ',' then some comma
  else none

/-- The string, number or word that begins with `c`, and what follows it. -/
def scanScalar (c : Char) (cs : List Char) : Except Break (Token × List Char) :=
  if c = '"' then do
    let (us, cs) ← scanText [] cs
    .ok (text ((joinUnits [] us).map String.ofList), cs)
  else if c = '-' then do
    let (n, cs) ← scanNumber true cs
    .ok (number n, cs)
  else if c.isDigit then do
    let (n, cs) ← scanNumber false (c :: cs)
    .ok (number n, cs)
  else if c = 'n' then do
    let cs ← scanWord "ull".toList cs
    .ok (null, cs)
  else if c = 't' then do
    let cs ← scanWord "rue".toList cs
    .ok (bool true, cs)
  else if c = 'f' then do
    let cs ← scanWord "alse".toList cs
    .ok (bool false, cs)
  else .error (.both .malformed)

/-- The token that begins with `c`, and what follows it.  Nothing follows a token
that breaks off. -/
def lexeme (c : Char) (cs : List Char) : Token × List Char :=
  match punctuation? c with
  | some t => (t, cs)
  | none =>
    match scanScalar c cs with
    | .ok r => r
    | .error b => (if c = '"' then badText b else bad b, [])

/-- A character that may stand between tokens. -/
def isSpace (c : Char) : Bool :=
  c == ' ' || c == '\t' || c == '\n' || c == '\r'

/-! ## Cutting ends -/

/-- A text takes at least its closing quote. -/
theorem length_scanText {units us : List Nat} {cs rest : List Char}
    (h : scanText units cs = .ok (us, rest)) : rest.length < cs.length := by
  fun_induction scanText units cs with
  | case2 units cs => cases h; exact Nat.lt_succ_self _
  | case4 units _ h₀ h₁ h₂ h₃ cs u _ ih => have := ih h; simp only [List.length_cons]; omega
  | case7 units _ e cs _ u _ ih => have := ih h; simp only [List.length_cons]; omega
  | case10 units c cs _ _ _ ih => have := ih h; simp only [List.length_cons]; omega
  | _ => cases h

theorem length_scanDigits {ds cs rest : List Char} (h : scanDigits cs = .ok (ds, rest)) :
    rest.length < cs.length := by
  unfold scanDigits at h
  split at h
  · cases h
  next hds =>
    cases h
    have hlen := congrArg List.length (List.takeWhile_append_dropWhile (p := Char.isDigit) (l := cs))
    rw [List.length_append] at hlen
    have : (cs.takeWhile Char.isDigit).length ≠ 0 := fun h0 => hds (List.length_eq_zero_iff.1 h0)
    omega

theorem length_scanWhole {ds cs rest : List Char} (h : scanWhole cs = .ok (ds, rest)) :
    rest.length < cs.length := by
  obtain ⟨⟨_, _⟩, hd, h⟩ := bind_eq_ok.1 h
  simp only at h
  split at h
  · cases h
  · cases h
    exact length_scanDigits hd

theorem length_scanFraction {ds : Option (List Char)} {cs rest : List Char}
    (h : scanFraction cs = .ok (ds, rest)) : rest.length ≤ cs.length := by
  unfold scanFraction at h
  split at h
  · obtain ⟨_, hd, h⟩ := bind_eq_ok.1 h
    cases h
    exact Nat.le_succ_of_le (Nat.le_of_lt (length_scanDigits hd))
  · cases h
    exact Nat.le_refl _

theorem length_scanSign (cs : List Char) : (scanSign cs).2.length ≤ cs.length := by
  unfold scanSign
  split <;> simp

theorem length_scanPower {k : Option Int} {cs rest : List Char}
    (h : scanPower cs = .ok (k, rest)) : rest.length ≤ cs.length := by
  unfold scanPower at h
  split at h
  · cases h
    exact Nat.le_refl _
  next c cs =>
    split at h
    · obtain ⟨_, hd, h⟩ := bind_eq_ok.1 h
      cases h
      have hs := length_scanSign cs
      have hr := length_scanDigits hd
      exact Nat.le_succ_of_le (Nat.le_of_lt (Nat.lt_of_lt_of_le hr hs))
    · cases h
      exact Nat.le_refl _

theorem length_scanNumber {negative : Bool} {n : Option Number} {cs rest : List Char}
    (h : scanNumber negative cs = .ok (n, rest)) : rest.length < cs.length := by
  obtain ⟨_, hw, h⟩ := bind_eq_ok.1 h
  obtain ⟨_, hf, h⟩ := bind_eq_ok.1 h
  obtain ⟨_, hp, h⟩ := bind_eq_ok.1 h
  cases h
  calc
    _ ≤ _ := length_scanPower hp
    _ ≤ _ := length_scanFraction hf
    _ < _ := length_scanWhole hw

theorem length_scanWord {word cs rest : List Char} (h : scanWord word cs = .ok rest) :
    rest.length ≤ cs.length := by
  fun_induction scanWord word cs with
  | case1 => cases h; exact Nat.le_refl _
  | case3 ws c cs ih => have := ih h; simp only [List.length_cons]; omega
  | _ => cases h

/-- No lexeme gives characters back. -/
theorem length_scanScalar {c : Char} {t : Token} {cs rest : List Char}
    (h : scanScalar c cs = .ok (t, rest)) : rest.length ≤ cs.length := by
  unfold scanScalar at h
  repeat' split at h
  · obtain ⟨_, hr, h⟩ := bind_eq_ok.1 h
    cases h
    exact Nat.le_of_lt (length_scanText hr)
  · obtain ⟨_, hr, h⟩ := bind_eq_ok.1 h
    cases h
    exact Nat.le_of_lt (length_scanNumber hr)
  · obtain ⟨_, hr, h⟩ := bind_eq_ok.1 h
    cases h
    exact Nat.le_of_lt_succ (length_scanNumber hr)
  · obtain ⟨_, hr, h⟩ := bind_eq_ok.1 h
    cases h
    exact length_scanWord hr
  · obtain ⟨_, hr, h⟩ := bind_eq_ok.1 h
    cases h
    exact length_scanWord hr
  · obtain ⟨_, hr, h⟩ := bind_eq_ok.1 h
    cases h
    exact length_scanWord hr
  · cases h

/-- What follows a token is no longer than what follows its first character. -/
theorem length_lexeme_le (c : Char) (cs : List Char) : (lexeme c cs).2.length ≤ cs.length := by
  unfold lexeme
  split
  · exact Nat.le_refl _
  · split
    next r hr => exact length_scanScalar hr
    · exact Nat.zero_le _

/-- The tokens of a text, behind those that were cut before it, newest first. -/
def cutOnto (cut : List Token) : List Char → List Token
  | [] => cut.reverse
  | c :: cs =>
    if isSpace c then cutOnto cut cs
    else cutOnto ((lexeme c cs).1 :: cut) (lexeme c cs).2
termination_by cs => cs.length
decreasing_by
  · exact Nat.lt_succ_self _
  · exact Nat.lt_succ_of_le (length_lexeme_le c cs)

/-- The tokens of a text. -/
def ofText (s : String) : List Token :=
  cutOnto [] s.toList

theorem cutOnto_nil (before : List Token) : cutOnto before [] = before.reverse := by
  rw [cutOnto]

theorem cutOnto_space {c : Char} (hc : isSpace c = true) (before : List Token) (cs : List Char) :
    cutOnto before (c :: cs) = cutOnto before cs := by
  rw [cutOnto, if_pos hc]

/-- Any other character begins a lexeme, and the rest is cut behind it. -/
theorem cutOnto_lexeme {c : Char} (hc : ¬ isSpace c = true) (before : List Token)
    (cs : List Char) :
    cutOnto before (c :: cs) = cutOnto ((lexeme c cs).1 :: before) (lexeme c cs).2 := by
  rw [cutOnto, if_neg hc]

/-- The tokens that were cut before stay in front. -/
theorem cutOnto_eq (before : List Token) :
    ∀ cs : List Char, cutOnto before cs = before.reverse ++ cutOnto [] cs
  | [] => by simp [cutOnto_nil]
  | c :: cs => by
    by_cases hc : isSpace c = true
    · rw [cutOnto_space hc, cutOnto_space hc]
      exact cutOnto_eq before cs
    · rw [cutOnto_lexeme hc, cutOnto_lexeme hc, cutOnto_eq (_ :: before), cutOnto_eq [_]]
      simp
termination_by cs => cs.length
decreasing_by
  all_goals have := length_lexeme_le c cs; simp only [List.length_cons]; omega

end Token

end VerifiedLinks.Json
