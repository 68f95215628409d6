import VerifiedLinks.Proofs.ContentType.Tags
import VerifiedLinks.Proofs.Route.Nodes
import VerifiedLinks.Proofs.Text.Literals

/-!
# Texts that are not quoted

A displayed route quotes its literals, its names and the media types that are not well known, but
a type stands in it as it is.  So the line ends of a displayed route are those of its types
(`Route.lineEnds_display`), and those of an error are the ones of the types that it shows
(`LinkError.lineEnds_message`).

The pattern of a path quotes nothing.  Its line ends are those of its literals and of the names of
its captures (`Route.lineEnds_pathPattern`).
-/

namespace VerifiedLinks

namespace Text

@[simp] theorem lineEnds_quoted (s : String) : lineEnds (quoted s) = 0 :=
  lineEnds_of_oneLine (oneLine_quoted s)

end Text

/-! ## Tags -/

namespace ContentType

theorem lineEnds_tag (ct : ContentType) : Text.lineEnds ct.tag = 0 := by
  cases ct with
  | other m => exact Text.lineEnds_quoted m
  | json | xml | plainText | html | formUrlEncoded | octetStream => rfl

theorem lineEnds_tagsFrom {separator : String} (h : Text.lineEnds separator = 0)
    (cts : List ContentType) : Text.lineEnds (tagsFrom separator cts) = 0 := by
  induction cts generalizing separator with
  | nil =>
      show Text.lineEnds "]" = 0
      rfl
  | cons ct cts ih =>
      have hcomma : Text.lineEnds ", " = 0 := rfl
      simp [tagsFrom, h, lineEnds_tag, ih hcomma]

@[simp] theorem lineEnds_tagList (cts : List ContentType) : Text.lineEnds (tagList cts) = 0 := by
  rw [tagList_eq, Text.lineEnds_append, lineEnds_tagsFrom rfl]
  rfl

end ContentType

/-! ## Displayed routes -/

/-- The type that is shown of a verb. -/
def Verb.type? (v : Verb) : Option String :=
  match v.method with
  | .delete => none
  | _ => v.response

namespace Route

/-- The types that are shown of a node without what lies below it. -/
def headTypes : Route → List String
  | alt .. => []
  | step s _ => s.type?.toList
  | verb v => v.type?.toList

/-- The types that are shown of the whole tree. -/
def shownTypes : Route → List String
  | alt left right => left.shownTypes ++ right.shownTypes
  | step s rest => s.type?.toList ++ rest.shownTypes
  | verb v => v.type?.toList

end Route

@[simp] theorem Place.lineEnds_combinator (place : Place) :
    Text.lineEnds place.combinator = 0 := by
  cases place with
  | query => rfl
  | matrix => rfl

/-- In the head of a step, only the type can hold line ends. -/
theorem Step.lineEnds_head (s : Step) :
    Text.lineEnds s.head = Text.allLineEnds s.type?.toList := by
  cases s with
  | segment literal => simp [head, type?]
  | capture name type => simp (disch := decide) [head, type?]
  | modifier m =>
      cases m with
      | body cts type => simp (disch := decide) [head, Modifier.head, type?]
      | param place repeated name type =>
          cases repeated with
          | false => simp (disch := decide) [head, Modifier.head, type?]
          | true => simp (disch := decide) [head, Modifier.head, type?]
      | flag place name => simp (disch := decide) [head, Modifier.head, type?]

theorem Verb.lineEnds_head (v : Verb) :
    Text.lineEnds v.head = Text.allLineEnds v.type?.toList := by
  obtain ⟨method, contentTypes, response⟩ := v
  have hresponse : Text.lineEnds (response.getD "()") = Text.allLineEnds response.toList := by
    cases response with
    | none => rfl
    | some type => simp
  cases method with
  | delete => exact Text.lineEnds_of_oneLine (s := "Delete") (by decide)
  | get | post | put => simp (disch := decide) [head, type?, Method.combinator, hresponse]

namespace Route

theorem lineEnds_head (r : Route) : Text.lineEnds r.head = Text.allLineEnds r.headTypes := by
  cases r with
  | alt left right => exact Text.lineEnds_of_oneLine (s := ":<|>") (by decide)
  | step s rest => exact s.lineEnds_head
  | verb v => exact v.lineEnds_head

theorem lineEnds_parenthesize (needed : Bool) (s : String) :
    Text.lineEnds (parenthesize needed s) = Text.lineEnds s := by
  cases needed with
  | false => rfl
  | true => simp (disch := decide) [parenthesize]

/-- No line ends but those of the types are in a displayed route. -/
theorem lineEnds_display (r : Route) : Text.lineEnds r.display = Text.allLineEnds r.shownTypes := by
  induction r with
  | alt left right ihl ihr =>
      simp (disch := decide) [display, shownTypes, lineEnds_parenthesize, ihl, ihr]
  | step s rest ih =>
      simp (disch := decide)
        [display, shownTypes, lineEnds_parenthesize, s.lineEnds_head, ih]
  | verb v => exact v.lineEnds_head

end Route

/-! ## Messages -/

/-- The types that an error shows. -/
def LinkError.shownTypes : LinkError → List String
  | notContained target => target.shownTypes
  | notLinkable target node => target.shownTypes ++ node.headTypes

/-- No line ends but those of the types are in the message of an error. -/
theorem LinkError.lineEnds_message (e : LinkError) :
    Text.lineEnds e.message = Text.allLineEnds e.shownTypes := by
  cases e with
  | notContained target => simp (disch := decide) [message, shownTypes, target.lineEnds_display]
  | notLinkable target node =>
      simp (disch := decide) [message, shownTypes, target.lineEnds_display, node.lineEnds_head]

/-! ## Patterns of paths -/

/-- The text of a step that is shown in the pattern of a path. -/
def Step.patternText? : Step → Option String
  | segment literal => some literal
  | capture name _ => some name
  | modifier _ => none

namespace Route

/-- The texts that are shown in the pattern of the path. -/
def patternTexts : Route → List String
  | step s rest => s.patternText?.toList ++ rest.patternTexts
  | _ => []

theorem lineEnds_stepPattern (s : Step) :
    Text.lineEnds (stepPattern s) = Text.allLineEnds s.patternText?.toList := by
  cases s with
  | segment literal => simp (disch := decide) [stepPattern, Step.patternText?]
  | capture name type => simp (disch := decide) [stepPattern, Step.patternText?]
  | modifier m => rfl

/-- No line ends but those of literals and of names are in the pattern of a path. -/
theorem lineEnds_pathPattern (r : Route) :
    Text.lineEnds r.pathPattern = Text.allLineEnds r.patternTexts := by
  induction r with
  | alt left right => rfl
  | step s rest ih => simp [pathPattern, patternTexts, lineEnds_stepPattern, ih]
  | verb v => rfl

end Route

end VerifiedLinks
