import VerifiedLinks.Json.Value
import VerifiedLinks.Manifest.Basic

/-!
# Tables as text

A table of links leaves the program in one of three forms: as a compact JSON
object, as one that is spread over lines, and as source code that declares one
string constant for each link.  A constant is named after its link, in capitals
with underscores (`constName`).
-/

namespace VerifiedLinks

/-! ## Names of constants -/

/-- A capital of ASCII begins a word behind such a character. -/
def endsWord (c : Char) : Bool :=
  c.isLower || c.isDigit

/-- One character of a name: letters become capitals, and all but letters and
digits become underscores. -/
def constChar (c : Char) : Char :=
  if c.isAlphanum then c.toUpper else '_'

/-- The characters of a name, with an underscore in front of each new word. -/
def constChars (afterWord : Bool) : List Char → List Char
  | [] => []
  | c :: cs =>
    if c.isUpper && afterWord then '_' :: constChar c :: constChars (endsWord c) cs
    else constChar c :: constChars (endsWord c) cs

/-- The name of the constant of a link.  No name is empty or begins with a digit. -/
def constName (name : String) : String :=
  match constChars false name.toList with
  | [] => "_"
  | c :: cs => String.ofList (if c.isDigit then '_' :: c :: cs else c :: cs)

namespace LinkTable

/-! ## Source code -/

/-- The declaration of one constant. -/
def declaration (name : String) (link : Link) : String :=
  "\n/// `" ++ name ++ "`\n" ++
    "pub const " ++ constName name ++ ": &str = " ++ Text.quoted link.path ++ ";\n"

/-- A module that declares a constant for each link. -/
def sourceModule (t : LinkTable) : String :=
  "// @generated by linkcheck. Do not edit.\n" ++
    String.join (t.entries.map fun e => declaration e.1 e.2)

/-! ## Objects -/

/-- The table as a compact object. -/
def toText (t : LinkTable) : String :=
  (Json.Value.object (t.entries.map fun e => (e.1, .text e.2.path))).write

/-- The table as an object with each member on a line of its own. -/
def toLines (t : LinkTable) : String :=
  match t.entries with
  | [] => "\x7b\x7d"
  | es =>
    "\x7b\n" ++
      ",\n".intercalate (es.map fun e =>
        "  " ++ Json.writeText e.1 ++ ": " ++ Json.writeText e.2.path) ++
      "\n\x7d"

end LinkTable

end VerifiedLinks
