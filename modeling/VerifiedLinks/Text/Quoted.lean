import VerifiedLinks.Text.Unprintable

/-!
# Quoted text

A text between double quotes, written so that it stays on one line and can be
read back.  A quote, a backslash and the four common controls are written as a
backslash and one more character.  Every other character that does not stand
alone on a page is written as its code point in hexadecimal.  All else stands
for itself, the apostrophe too.
-/

namespace VerifiedLinks.Text.Quoted

/-- The code point of a character, in lower-case hexadecimal between braces. -/
def codePoint (c : Char) : List Char :=
  '\\' :: 'u' :: '{' :: Nat.toDigits 16 c.toNat ++ ['}']

/-- One character as it is written between quotes. -/
def encodeChar (c : Char) : List Char :=
  if c = '"' then ['\\', '"']
  else if c = '\\' then ['\\', '\\']
  else if c = '\n' then ['\\', 'n']
  else if c = '\r' then ['\\', 'r']
  else if c = '\t' then ['\\', 't']
  else if c = '\x00' then ['\\', '0']
  else if standsAlone c then [c]
  else codePoint c

/-- The characters of a text as they are written between quotes. -/
def encode (cs : List Char) : List Char :=
  cs.flatMap encodeChar

@[simp] theorem encode_nil : encode [] = [] := rfl

@[simp] theorem encode_cons (c : Char) (cs : List Char) :
    encode (c :: cs) = encodeChar c ++ encode cs := rfl

@[simp] theorem encode_append (cs ds : List Char) : encode (cs ++ ds) = encode cs ++ encode ds :=
  List.flatMap_append

end Quoted

/-- A text with its quotes. -/
def quoted (s : String) : String :=
  String.ofList ('"' :: Quoted.encode s.toList ++ ['"'])

end VerifiedLinks.Text
