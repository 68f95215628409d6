import VerifiedLinks.Route.Basic

/-!
# Displayed routes

A route is shown to people as a chain of combinators.  Each node has a *head*,
the node without what lies below it.  A step is written in front of its child
with `:>` between them, and an alternative as its two branches with `:<|>`
between them.  Alternatives associate to the right and bind weaker than steps, so
parentheses stand around an alternative that is a left branch or lies below a
step, and nowhere else.
-/

namespace VerifiedLinks

/-- The word for a place, at the front of the combinators of that place. -/
def Place.combinator : Place → String
  | query => "Query"
  | matrix => "Matrix"

/-- A modifier without what lies below it. -/
def Modifier.head : Modifier → String
  | body cts type => "ReqBody " ++ ContentType.tagList cts ++ " " ++ type
  | param place repeated name type =>
    place.combinator ++ (if repeated then "Params " else "Param ") ++ Text.quoted name ++ " " ++ type
  | flag place name => place.combinator ++ "Flag " ++ Text.quoted name

/-- A step without what lies below it. -/
def Step.head : Step → String
  | segment literal => Text.quoted literal
  | capture name type => "Capture " ++ Text.quoted name ++ " " ++ type
  | modifier m => m.head

/-- A verb.  Of one that deletes nothing but the method is shown, and a response
that is not named is shown as the empty tuple. -/
def Verb.head (v : Verb) : String :=
  match v.method with
  | .delete => v.method.combinator
  | _ => v.method.combinator ++ " " ++ ContentType.tagList v.contentTypes ++ " " ++
      v.response.getD "()"

namespace Route

/-- The topmost node without what lies below it. -/
def head : Route → String
  | alt .. => ":<|>"
  | step s _ => s.head
  | verb v => v.head

/-- A text in parentheses, if they are needed. -/
def parenthesize (needed : Bool) (s : String) : String :=
  if needed then "(" ++ s ++ ")" else s

/-- The whole tree. -/
def display : Route → String
  | alt left right => parenthesize left.isAlt left.display ++ " :<|> " ++ right.display
  | step s rest => s.head ++ " :> " ++ parenthesize rest.isAlt rest.display
  | verb v => v.head

end Route

end VerifiedLinks
