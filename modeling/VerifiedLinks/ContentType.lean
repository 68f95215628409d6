import VerifiedLinks.Text.Blank
import VerifiedLinks.Text.Quoted

/-!
# Content types

A content type is one of six well-known media types or another one, which is
then kept as text.  `ContentType.parse` reads the spellings a user may write: a
short alias, or a media type.  Blanks around it are dropped and the case of its
letters does not matter.  What no alias covers has to have the form `type/subtype`,
both made of the characters that a registered name may have (`isMediaType`).
-/

namespace VerifiedLinks

/-- What a body is written in. -/
inductive ContentType where
  | json | xml | plainText | html | formUrlEncoded | octetStream
  /-- Any other media type, in lower case when it was read from text. -/
  | other (mediaType : String)
deriving DecidableEq

namespace ContentType

/-- The media type as it is written on the wire. -/
def mediaType : ContentType → String
  | json => "application/json"
  | xml => "application/xml"
  | plainText => "text/plain"
  | html => "text/html"
  | formUrlEncoded => "application/x-www-form-urlencoded"
  | octetStream => "application/octet-stream"
  | other m => m

/-- The word for the content type in a displayed route. -/
def tag : ContentType → String
  | json => "JSON"
  | xml => "XML"
  | plainText => "PlainText"
  | html => "HTML"
  | formUrlEncoded => "FormUrlEncoded"
  | octetStream => "OctetStream"
  | other m => Text.quoted m

/-- The bracketed list of tags of a displayed route. -/
def tagList (cts : List ContentType) : String :=
  "'[" ++ ", ".intercalate (cts.map tag) ++ "]"

/-- The well-known media types and the short words that stand for them. -/
def aliases : List (String × ContentType) := [
  ("json", json), ("application/json", json),
  ("xml", xml), ("application/xml", xml),
  ("text", plainText), ("plaintext", plainText), ("text/plain", plainText),
  ("html", html), ("text/html", html),
  ("form", formUrlEncoded), ("application/x-www-form-urlencoded", formUrlEncoded),
  ("octet-stream", octetStream), ("application/octet-stream", octetStream)]

/-! ## Registered names -/

/-- A lower-case letter or a digit of ASCII. -/
def isNameStart (c : Char) : Bool :=
  c.isLower || c.isDigit

/-- A character that may follow the first one of a registered name. -/
def isNameChar (c : Char) : Bool :=
  isNameStart c || "!#$&^_.+-".toList.contains c

/-- A registered name: a letter or digit, then any number of name characters. -/
def isName : List Char → Bool
  | [] => false
  | c :: cs => isNameStart c && cs.all isNameChar

/-- Two registered names with a slash between them. -/
def isMediaType (cs : List Char) : Bool :=
  match cs.dropWhile (· != '/') with
  | [] => false
  | _ :: sub => isName (cs.takeWhile (· != '/')) && isName sub

end ContentType

/-- A text that spells no content type. -/
structure InvalidContentType where
  /-- The text as it was given. -/
  text : String
deriving DecidableEq

/-- What the user is told. -/
def InvalidContentType.message (e : InvalidContentType) : String :=
  "invalid content type " ++ Text.quoted e.text ++
    "; expected a media type such as application/json or one of: " ++
    "json, xml, text, html, form, octet-stream"

namespace ContentType

/-- The content type that a text without blanks around it and without capitals
spells, if any. -/
def ofLower? (s : String) : Option ContentType :=
  match aliases.lookup s with
  | some ct => some ct
  | none => if isMediaType s.toList then some (other s) else none

/-- The content type a text spells. -/
def parse (s : String) : Except InvalidContentType ContentType :=
  match ofLower? (String.ofList ((Text.trim s.toList).map Char.toLower)) with
  | some ct => .ok ct
  | none => .error ⟨s⟩

end ContentType

end VerifiedLinks
