import VerifiedLinks.Json.ReadError
import VerifiedLinks.Route.Basic

/-!
# Reading routes

On the wire a node is an object.  Its member `kind` says which node it is, and
the other members are the fields of that kind (`Kind.fields`).  Members that are
no field are ignored.  An array in place of the object holds the kind and then
the fields in order.

The outermost node of a text is read while the text is cut.  A `kind` that names no
node is reported as soon as it is met, and everything else only when the node has
been read to its end, so a fault in the node comes first (`Route.ofDraft`).  The
nodes below it are read from values (`Route.ofValue`).  There the kind can also be
given by its number.

In both cases the fields are then looked at in the order of the text
(`Fields.ofMembers`), and those that are missing are noticed last
(`Fields.build`).
-/

namespace VerifiedLinks

open Json (Value Draft Mismatch ReadError mismatch orFault)

/-! ## Fields -/

/-- The fields of all kinds of node.  A field means the same in each. -/
inductive Field where
  | literal | name | type | contentTypes | left | right | rest | method | response
deriving DecidableEq

/-- The name of a field on the wire. -/
def Field.key : Field → String
  | literal => "literal"
  | name => "name"
  | type => "type"
  | contentTypes => "content_types"
  | left => "left"
  | right => "right"
  | rest => "rest"
  | method => "method"
  | response => "response"

/-- The fields of a kind, in order. -/
def Kind.fields : Kind → List Field
  | alt => [.left, .right]
  | segment => [.literal, .rest]
  | capture => [.name, .type, .rest]
  | body => [.contentTypes, .type, .rest]
  | param .. => [.name, .type, .rest]
  | flag _ => [.name, .rest]
  | verb => [.method, .contentTypes, .response]

/-- A verb may leave out its content types and its response. -/
def Kind.mayOmit (k : Kind) (f : Field) : Bool :=
  k == verb && (f == .contentTypes || f == .response)

/-- How a message names the array that stands for a node. -/
def Kind.arrayForm : Kind → String
  | alt => "struct variant Route::Alt with 2 elements"
  | segment => "struct variant Route::Segment with 2 elements"
  | capture => "struct variant Route::Capture with 3 elements"
  | body => "struct variant Route::ReqBody with 3 elements"
  | param .query false => "struct variant Route::QueryParam with 3 elements"
  | param .query true => "struct variant Route::QueryParams with 3 elements"
  | flag .query => "struct variant Route::QueryFlag with 2 elements"
  | param .matrix false => "struct variant Route::MatrixParam with 3 elements"
  | param .matrix true => "struct variant Route::MatrixParams with 3 elements"
  | flag .matrix => "struct variant Route::MatrixFlag with 2 elements"
  | verb => "struct Verb with 3 elements"

/-! ## Values of fields -/

/-- A string. -/
def readString : Value → Except ReadError String
  | .text s => .ok s
  | v => v.refuse "a string"

/-- A content type. -/
def readContentType (v : Value) : Except ReadError ContentType := do
  match ContentType.parse (← readString v) with
  | .ok ct => .ok ct
  | .error e => mismatch (.contentType e)

/-- A list of content types. -/
def readContentTypes : Value → Except ReadError (List ContentType)
  | .array items => items.mapM readContentType
  | v => v.refuse "a sequence"

/-- The method with this name. -/
def readMethodName (s : String) : Except ReadError Method :=
  match Method.ofName? s with
  | some m => .ok m
  | none => mismatch (.unknownVariant s (Method.all.map Method.name))

/-- A method: its name, or an object that binds its name to nothing. -/
def readMethod : Value → Except ReadError Method
  | .text s => readMethodName s
  | .object [(s, v)] => do
    let m ← readMethodName s
    match v with
    | .null => .ok m
    | .object [] => .ok m
    | v => v.refuse "unit"
  | .object _ => mismatch (.invalidValue .map "map with a single key")
  | v => v.refuse "string or map"

/-- The name of a response, or none. -/
def readResponse : Value → Except ReadError (Option String)
  | .null => .ok none
  | v => do .ok (some (← readString v))

/-- The kind with this name. -/
def readKindName (s : String) : Except ReadError Kind :=
  match Kind.ofName? s with
  | some k => .ok k
  | none => mismatch (.unknownVariant s (Kind.all.map Kind.name))

/-- The kind of a node below the outermost one: its name or its number. -/
def readKind : Value → Except ReadError Kind
  | .text s => readKindName s
  | .number (.integer (.ofNat n)) =>
    match Kind.all[n]? with
    | some k => .ok k
    | none => mismatch (.invalidValue (.number (.integer n)) "variant index 0 <= i < 11")
  | v => v.refuse "variant identifier"

/-- The kind of the outermost node: its name. -/
def readOuterKind : Draft → Except ReadError Kind
  | .text (some s) => readKindName s
  | d => d.refuse "variant identifier"

/-! ## Nodes -/

/-- The value of a field, and what becomes of it if the field is a route. -/
structure Part where
  /-- The value. -/
  value : Value
  /-- The value, read as a route. -/
  route : Except ReadError Route

/-- The fields of a node that have been read. -/
structure Fields where
  literal : Option String := none
  name : Option String := none
  type : Option String := none
  contentTypes : Option (List ContentType) := none
  left : Option Route := none
  right : Option Route := none
  rest : Option Route := none
  method : Option Method := none
  response : Option (Option String) := none

/-- A field that is read for the first time. -/
def fill {α : Type} (f : Field) (old : Option α) (new : Except ReadError α) :
    Except ReadError (Option α) :=
  match old with
  | some _ => mismatch (.duplicateField f.key)
  | none => new.map some

/-- A field that has to be there. -/
def need {α : Type} (f : Field) : Option α → Except ReadError α
  | some a => .ok a
  | none => mismatch (.missingField f.key)

namespace Fields

/-- The fields with one more of them read. -/
def read (fs : Fields) (f : Field) (p : Part) : Except ReadError Fields :=
  match f with
  | .literal => do .ok { fs with literal := ← fill f fs.literal (readString p.value) }
  | .name => do .ok { fs with name := ← fill f fs.name (readString p.value) }
  | .type => do .ok { fs with type := ← fill f fs.type (readString p.value) }
  | .contentTypes => do
    .ok { fs with contentTypes := ← fill f fs.contentTypes (readContentTypes p.value) }
  | .left => do .ok { fs with left := ← fill f fs.left p.route }
  | .right => do .ok { fs with right := ← fill f fs.right p.route }
  | .rest => do .ok { fs with rest := ← fill f fs.rest p.route }
  | .method => do .ok { fs with method := ← fill f fs.method (readMethod p.value) }
  | .response => do .ok { fs with response := ← fill f fs.response (readResponse p.value) }

/-- The fields of a kind among the members of an object, in the order of the text. -/
def ofMembers (k : Kind) (fs : Fields) : List (String × Part) → Except ReadError Fields
  | [] => .ok fs
  | (name, p) :: ms =>
    match k.fields.find? fun f => f.key == name with
    | some f => do ofMembers k (← fs.read f p) ms
    | none => ofMembers k fs ms

/-- The fields of a kind among the items of an array, `index` of which came before. -/
def ofItems (k : Kind) (fs : Fields) (index : Nat) :
    List Field → List Part → Except ReadError Fields
  | [], [] => .ok fs
  | [], extra =>
    mismatch (.invalidLength (index + extra.length) (toString index ++ " elements in sequence"))
  | f :: fields, [] =>
    if k.mayOmit f then ofItems k fs index fields []
    else mismatch (.invalidLength index k.arrayForm)
  | f :: fields, p :: ps => do ofItems k (← fs.read f p) (index + 1) fields ps

/-- The node of a kind with these fields. -/
def build (fs : Fields) : Kind → Except ReadError Route
  | .alt => do .ok (.alt (← need .left fs.left) (← need .right fs.right))
  | .segment => do
    .ok (.step (.segment (← need .literal fs.literal)) (← need .rest fs.rest))
  | .capture => do
    .ok (.step (.capture (← need .name fs.name) (← need .type fs.type)) (← need .rest fs.rest))
  | .body => do
    .ok (.step (.modifier (.body (← need .contentTypes fs.contentTypes) (← need .type fs.type)))
      (← need .rest fs.rest))
  | .param place repeated => do
    .ok (.step
      (.modifier (.param place repeated (← need .name fs.name) (← need .type fs.type)))
      (← need .rest fs.rest))
  | .flag place => do
    .ok (.step (.modifier (.flag place (← need .name fs.name))) (← need .rest fs.rest))
  | .verb => do
    .ok (.verb {
      method := ← need .method fs.method
      contentTypes := fs.contentTypes.getD []
      response := fs.response.getD none })

end Fields

/-- The node of a kind whose other members are these. -/
def Kind.ofMembers (k : Kind) (ms : List (String × Part)) : Except ReadError Route := do
  (← Fields.ofMembers k {} ms).build k

/-- The node of a kind whose other items are these. -/
def Kind.ofItems (k : Kind) (ps : List Part) : Except ReadError Route := do
  (← Fields.ofItems k {} 0 k.fields ps).build k

/-- The kind among the members of an object, and the other members.  Members are
looked at in order, and there is no second kind. -/
def splitKind {α : Type} (readKind : α → Except ReadError Kind)
    (readPart : α → Except ReadError Part) (kind : Option Kind) :
    List (Option String × α) → Except ReadError (Option Kind × List (String × Part))
  | [] => .ok (kind, [])
  | (name, a) :: ms => do
    let name ← orFault (Draft.required name)
    if name = "kind" then
      match kind with
      | some _ => mismatch (.duplicateField "kind")
      | none => splitKind readKind readPart (some (← readKind a)) ms
    else
      let p ← readPart a
      let (kind, ps) ← splitKind readKind readPart kind ms
      .ok (kind, (name, p) :: ps)

/-- The kind of a node, which has to be there. -/
def needKind : Option Kind → Except ReadError Kind
  | some k => .ok k
  | none => mismatch (.missingField "kind")

/-- What a message calls a route. -/
def routeExpected : String := "internally tagged enum Route"

/-- The node whose members are these. -/
def Part.ofMembers (ms : List (String × Part)) : Except ReadError Route := do
  let (kind, ps) ← splitKind (fun p => readKind p.value) .ok none (ms.map fun m => (some m.1, m.2))
  (← needKind kind).ofMembers ps

/-- The node whose items are these. -/
def Part.ofItems : List Part → Except ReadError Route
  | [] => do (← needKind none).ofItems []
  | p :: ps => do (← readKind p.value).ofItems ps

namespace Route

mutual

/-- A route below the outermost node. -/
def ofValue : Value → Except ReadError Route
  | .object ms => Part.ofMembers (memberParts ms)
  | .array vs => Part.ofItems (itemParts vs)
  | .null => Value.null.refuse routeExpected
  | .bool b => (Value.bool b).refuse routeExpected
  | .number n => (Value.number n).refuse routeExpected
  | .text s => (Value.text s).refuse routeExpected

/-- The members of an object, each with its reading as a route. -/
def memberParts : List (String × Value) → List (String × Part)
  | [] => []
  | (name, v) :: ms => (name, ⟨v, ofValue v⟩) :: memberParts ms

/-- The items of an array, each with its reading as a route. -/
def itemParts : List Value → List Part
  | [] => []
  | v :: vs => ⟨v, ofValue v⟩ :: itemParts vs

end

/-- A value with its reading as a route. -/
def part (v : Value) : Part := ⟨v, ofValue v⟩

theorem memberParts_eq_map (ms : List (String × Value)) :
    memberParts ms = ms.map fun m => (m.1, part m.2) := by
  induction ms with
  | nil => simp [memberParts]
  | cons m ms ih => simp [memberParts, part, ih]

theorem itemParts_eq_map (vs : List Value) : itemParts vs = vs.map part := by
  induction vs with
  | nil => simp [itemParts]
  | cons v vs ih => simp [itemParts, part, ih]

/-- A value inside the outermost node, with its reading as a route. -/
def readPart (room : Nat) (d : Draft) : Except ReadError Part := do
  .ok (part (← orFault (d.value room)))

/-- The outermost node of a text, if no more than `room` arrays and objects are
open at once. -/
def ofDraft : (room : Nat) → Draft → Except ReadError Route
  | 0, .object .. => .error (.fault .malformed)
  | 0, .array .. => .error (.fault .malformed)
  | room + 1, .object ms stop => do
    let (kind, ps) ← splitKind readOuterKind (readPart room) none ms
    orFault (Draft.stopped stop)
    (← needKind kind).ofMembers ps
  | room + 1, .array ds stop =>
    match ds with
    | [] => do
      orFault (Draft.stopped stop)
      (← needKind none).ofItems []
    | d :: ds => do
      let kind ← readOuterKind d
      let ps ← ds.mapM (readPart room)
      orFault (Draft.stopped stop)
      kind.ofItems ps
  | _, d => d.refuse routeExpected

/-- The route that a text writes. -/
def ofText (s : String) : Except ReadError Route :=
  Json.readText (ofDraft Json.maxDepth) s

end Route

end VerifiedLinks
