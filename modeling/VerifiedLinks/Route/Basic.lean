import VerifiedLinks.ContentType
import VerifiedLinks.Method

/-!
# Routes

A *route* describes a set of endpoints as a tree.  A leaf is a *verb*: a method
with the content types it can answer in and the name of its response type.  An
inner node is either an *alternative*, which offers all that its two branches
offer, or a *step*, which stands in front of all that lies below it.  A step is a
literal segment of the path, a capture that stands for any one segment, or a
*modifier*: a part of the request outside its path.

So every node is an alternative, a step or a verb, and only a step has a single
child (`Route.rest?`).  `Route.path` and `Route.choice` build the two common
shapes: a verb under literal segments, and a list of routes to choose from.
-/

namespace VerifiedLinks

/-! ## Nodes -/

/-- What a request is answered with.  A `DELETE` carries neither content types
nor a response, but the type does not ask for it: see `Verb.check`. -/
structure Verb where
  /-- The method of the request. -/
  method : Method
  /-- The content types on offer. -/
  contentTypes : List ContentType := []
  /-- The name of the response type. -/
  response : Option String := none
deriving DecidableEq

/-- The verb that deletes. -/
def Verb.delete : Verb := { method := .delete }

/-- Where a parameter is written: after the whole path, or within it. -/
inductive Place where
  | query | matrix
deriving DecidableEq

/-- A part of a request that takes no place in its path. -/
inductive Modifier where
  /-- A body of the given type, in one of the given content types. -/
  | body (contentTypes : List ContentType) (type : String)
  /-- A parameter with a value, which may be given several times if `repeated`. -/
  | param (place : Place) (repeated : Bool) (name type : String)
  /-- A parameter that is present or absent. -/
  | flag (place : Place) (name : String)
deriving DecidableEq

/-- A node with one child. -/
inductive Step where
  /-- A segment that has to appear as it is written. -/
  | segment (literal : String)
  /-- Any one segment. -/
  | capture (name type : String)
  | modifier (m : Modifier)
deriving DecidableEq

/-- A tree of endpoints. -/
inductive Route where
  /-- The endpoints of either branch. -/
  | alt (left right : Route)
  /-- The endpoints of `rest`, behind the step `s`. -/
  | step (s : Step) (rest : Route)
  /-- One endpoint. -/
  | verb (v : Verb)
deriving DecidableEq

/-! ## Kinds -/

/-- The kinds of node that have a name of their own. -/
inductive Kind where
  | alt | segment | capture | body
  | param (place : Place) (repeated : Bool)
  | flag (place : Place)
  | verb
deriving DecidableEq

namespace Kind

/-- All kinds, in the order in which they are numbered and listed. -/
def all : List Kind := [alt, segment, capture, body,
  param .query false, param .query true, flag .query,
  param .matrix false, param .matrix true, flag .matrix, verb]

/-- The name of the kind on the wire. -/
def name : Kind → String
  | alt => "alt"
  | segment => "segment"
  | capture => "capture"
  | body => "req_body"
  | param .query false => "query_param"
  | param .query true => "query_params"
  | flag .query => "query_flag"
  | param .matrix false => "matrix_param"
  | param .matrix true => "matrix_params"
  | flag .matrix => "matrix_flag"
  | verb => "verb"

/-- The kind with exactly this name. -/
def ofName? (s : String) : Option Kind :=
  all.find? fun k => k.name == s

@[simp] theorem ofName?_name (k : Kind) : ofName? k.name = some k := by
  rcases k with _ | _ | _ | _ | ⟨_ | _, _ | _⟩ | ⟨_ | _⟩ | _ <;> decide

end Kind

/-- The kind of a modifier. -/
def Modifier.kind : Modifier → Kind
  | body .. => .body
  | param place repeated .. => .param place repeated
  | flag place _ => .flag place

/-- The kind of a step. -/
def Step.kind : Step → Kind
  | segment _ => .segment
  | capture .. => .capture
  | modifier m => m.kind

namespace Route

/-- The kind of the topmost node. -/
def kind : Route → Kind
  | alt .. => .alt
  | step s _ => s.kind
  | verb _ => .verb

/-! ## Shape -/

/-- The child of a step. -/
def rest? : Route → Option Route
  | step _ rest => some rest
  | _ => none

/-- The topmost node is an alternative. -/
def isAlt : Route → Bool
  | alt .. => true
  | _ => false

/-- The topmost node is a modifier. -/
def isModifier : Route → Bool
  | step (.modifier _) _ => true
  | _ => false

/-! ## Building -/

/-- Literal segments, in order, in front of a verb. -/
def path (segments : List String) (v : Verb) : Route :=
  segments.foldr (fun s r => step (.segment s) r) (verb v)

@[simp] theorem path_nil (v : Verb) : path [] v = verb v := rfl

@[simp] theorem path_cons (s : String) (segments : List String) (v : Verb) :
    path (s :: segments) v = step (.segment s) (path segments v) := rfl

/-- A choice between all routes of a list, nested to the right.  There is none
between no routes at all. -/
def choice : List Route → Option Route
  | [] => none
  | r :: rs => some (match choice rs with
    | none => r
    | some below => alt r below)

@[simp] theorem choice_nil : choice [] = none := rfl

@[simp] theorem choice_singleton (r : Route) : choice [r] = some r := rfl

end Route

end VerifiedLinks
