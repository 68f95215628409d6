import VerifiedLinks.ContentType
import VerifiedLinks.Json.Draft

/-!
# Why a text cannot be read

A text is either no JSON at all (`Fault`) or JSON of the wrong shape
(`Mismatch`).  A mismatch says what was found and what was expected instead.
-/

namespace VerifiedLinks.Json

/-- What a message says was found. -/
inductive Found where
  | null
  | bool (b : Bool)
  | number (n : Number)
  | text (s : String)
  | sequence
  | map

/-- What was found, in words. -/
def Found.message : Found → String
  | null => "null"
  | bool true => "boolean `true`"
  | bool false => "boolean `false`"
  | number (.integer n) => "integer `" ++ toString n ++ "`"
  | number (.real x) => "floating point `" ++ realText x ++ "`"
  | text s => "string " ++ Text.quoted s
  | sequence => "sequence"
  | map => "map"

/-- The shape of a value. -/
def Value.found : Value → Found
  | null => .null
  | bool b => .bool b
  | number n => .number n
  | text s => .text s
  | array _ => .sequence
  | object _ => .map

/-- The shape of a draft.  An array or object shows its shape with its first
character, whatever comes of it later. -/
def Draft.found : Draft → Except Fault Found
  | null => .ok .null
  | bool b => .ok (.bool b)
  | number n => do .ok (.number (← required n))
  | text s => do .ok (.text (← required s))
  | array .. => .ok .sequence
  | object .. => .ok .map
  | missing stop => .error stop.read

/-- A value of the wrong shape. -/
inductive Mismatch where
  | missingField (name : String)
  | duplicateField (name : String)
  /-- A word that is none of the `expected` ones. -/
  | unknownVariant (name : String) (expected : List String)
  | invalidType (found : Found) (expected : String)
  | invalidValue (found : Found) (expected : String)
  /-- An array of the wrong length. -/
  | invalidLength (length : Nat) (expected : String)
  | contentType (e : InvalidContentType)

/-- What the user is told. -/
def Mismatch.message : Mismatch → String
  | missingField name => "missing field `" ++ name ++ "`"
  | duplicateField name => "duplicate field `" ++ name ++ "`"
  | unknownVariant name expected =>
    "unknown variant `" ++ name ++ "`, expected one of " ++
      ", ".intercalate (expected.map fun s => "`" ++ s ++ "`")
  | invalidType found expected => "invalid type: " ++ found.message ++ ", expected " ++ expected
  | invalidValue found expected => "invalid value: " ++ found.message ++ ", expected " ++ expected
  | invalidLength length expected =>
    "invalid length " ++ toString length ++ ", expected " ++ expected
  | contentType e => e.message

/-- Why a text cannot be read. -/
inductive ReadError where
  | fault (f : Fault)
  | mismatch (m : Mismatch)

/-- What the user is told. -/
def ReadError.message : ReadError → String
  | fault .cutShort => "the text ends too early"
  | fault .malformed => "the text is not JSON"
  | mismatch m => m.message

/-- A result that can only fail with a fault. -/
def orFault {α : Type} : Except Fault α → Except ReadError α
  | .ok a => .ok a
  | .error f => .error (.fault f)

theorem orFault_eq_ok_iff {α : Type} {x : Except Fault α} {a : α} :
    orFault x = .ok a ↔ x = .ok a := by
  cases x with
  | ok b => simp [orFault]
  | error f => simp [orFault]

/-- Reading fails with a mismatch. -/
def mismatch {α : Type} (m : Mismatch) : Except ReadError α :=
  .error (.mismatch m)

/-- A value is not of the expected type. -/
def Value.refuse {α : Type} (v : Value) (expected : String) : Except ReadError α :=
  mismatch (.invalidType v.found expected)

/-- A draft is not of the expected type, unless it is not even JSON. -/
def Draft.refuse {α : Type} (d : Draft) (expected : String) : Except ReadError α := do
  mismatch (.invalidType (← orFault d.found) expected)

theorem Draft.refuse_ne_ok {α : Type} (d : Draft) (expected : String) (a : α) :
    d.refuse expected ≠ .ok a := by
  intro h
  rw [refuse] at h
  cases hfound : orFault d.found with
  | ok found =>
      rw [hfound] at h
      cases h
  | error e =>
      rw [hfound] at h
      cases h

/-- At most this many arrays and objects may be open at once. -/
def maxDepth : Nat := 127

/-- Reads a whole text.  What the reader itself reports comes before what follows
the value. -/
def readText {α : Type} (read : Draft → Except ReadError α) (s : String) : Except ReadError α := do
  let (d, rest) := Draft.ofTokens (Token.ofText s)
  let a ← read d
  if rest.isEmpty then .ok a else .error (.fault .malformed)

end VerifiedLinks.Json
