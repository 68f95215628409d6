import VerifiedLinks.Text.Quoted

/-!
# Request methods

The four methods an endpoint can answer to, and their three spellings: the name
on the wire, which is also the one shown to people, and the combinator that
stands at the end of a displayed route.  `Method.parse` reads the name in any
mixture of cases.
-/

namespace VerifiedLinks

/-- The method of a request. -/
inductive Method where
  | get | post | put | delete
deriving DecidableEq

namespace Method

/-- All methods, in the order in which they are listed to the user. -/
def all : List Method := [get, post, put, delete]

/-- The name of the method on the wire. -/
def name : Method → String
  | get => "GET"
  | post => "POST"
  | put => "PUT"
  | delete => "DELETE"

/-- The word for the method in a displayed route. -/
def combinator : Method → String
  | get => "Get"
  | post => "Post"
  | put => "Put"
  | delete => "Delete"

/-- The method with exactly this name. -/
def ofName? (s : String) : Option Method :=
  all.find? fun m => m.name == s

@[simp] theorem ofName?_name (m : Method) : ofName? m.name = some m := by
  cases m <;> decide

end Method

/-- A text that names no method. -/
structure UnknownMethod where
  /-- The text as it was given. -/
  text : String

namespace UnknownMethod

/-- What the user is told. -/
def message (e : UnknownMethod) : String :=
  "unknown method " ++ Text.quoted e.text ++ "; expected one of: " ++
    ", ".intercalate (Method.all.map Method.name)

end UnknownMethod

/-- The method with this name in any mixture of cases. -/
def Method.parse (s : String) : Except UnknownMethod Method :=
  match ofName? (s.map Char.toUpper) with
  | some m => .ok m
  | none => .error ⟨s⟩

end VerifiedLinks
