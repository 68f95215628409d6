import VerifiedLinks.Json.Token
import VerifiedLinks.Json.Value

/-!
# Drafts

A *draft* is a JSON text as far as it holds.  It is a tree like a value, but it may
break off: an array or object that was never closed keeps the break that stopped
it, and where a value should stand and does not there is a `missing` one.  So a
reader can look at the parts in front of the break before it comes to the break
itself.  `Draft.ofTokens` always makes a draft and also gives the tokens that
follow it.

A draft is put together by a machine that takes one token at a time.  Its stack
holds the arrays and objects that are still open.

Whoever uses a draft decides what is a fault.  `Draft.value` reads it as a value.
It refuses what breaks off, what has no value, and what is nested deeper than
there is room for.  `Draft.skip` refuses only what breaks off.  Both report the
first fault in the order of the text.
-/

namespace VerifiedLinks.Json

/-- A JSON text as far as it holds. -/
inductive Draft where
  | null
  | bool (b : Bool)
  /-- A number, with its value unless it is too large. -/
  | number (value : Option Number)
  /-- A string, with its content unless half of a surrogate pair stands alone. -/
  | text (content : Option String)
  /-- An array, and the break that stopped it if it was not closed. -/
  | array (items : List Draft) (stop : Option Break)
  /-- An object, and the break that stopped it if it was not closed. -/
  | object (members : List (Option String × Draft)) (stop : Option Break)
  /-- No value where there should be one. -/
  | missing (stop : Break)

/-! ## The machine -/

/-- An array or object around the value that is being put together. -/
inductive Frame where
  /-- An array with the items so far, newest first. -/
  | array (items : List Draft)
  /-- An object with the members so far, newest first, and the name of the next. -/
  | object (members : List (Option String × Draft)) (name : Option String)

/-- What may come next. -/
inductive Turn where
  /-- A value. -/
  | value
  /-- The first item of an array, or its end. -/
  | firstItem
  /-- A comma or the end, after an item. -/
  | afterItem (items : List Draft)
  /-- The first name in an object, or its end. -/
  | firstName
  /-- A name, after a comma. -/
  | name (members : List (Option String × Draft))
  /-- The colon after a name. -/
  | colon (members : List (Option String × Draft)) (name : Option String)
  /-- A comma or the end, after a member. -/
  | afterMember (members : List (Option String × Draft))

/-- What a token leads to. -/
inductive Move where
  /-- The machine goes on. -/
  | go (turn : Turn) (stack : List Frame)
  /-- The outermost value is complete. -/
  | done (draft : Draft)
  /-- The text is no JSON from here on. -/
  | halt (stop : Break)

/-- A complete value, within the frames around it. -/
def Move.complete (d : Draft) : List Frame → Move
  | [] => .done d
  | .array items :: stack => .go (.afterItem (d :: items)) stack
  | .object members name :: stack => .go (.afterMember ((name, d) :: members)) stack

/-- The first token of a value. -/
def Move.value (stack : List Frame) : Token → Move
  | .openArray => .go .firstItem stack
  | .openObject => .go .firstName stack
  | .null => .complete .null stack
  | .bool b => .complete (.bool b) stack
  | .number value => .complete (.number value) stack
  | .text content => .complete (.text content) stack
  | .badText stop => .halt stop
  | .bad stop => .halt stop
  | _ => .halt (.both .malformed)

/-- The name of a member. -/
def Move.name (members : List (Option String × Draft)) (stack : List Frame) : Token → Move
  | .text content => .go (.colon members content) stack
  | .badText stop => .halt stop
  | _ => .halt (.both .malformed)

/-- What a token leads to. -/
def Turn.move (turn : Turn) (stack : List Frame) (t : Token) : Move :=
  match turn with
  | value => .value stack t
  | firstItem =>
    match t with
    | .closeArray => .complete (.array [] none) stack
    | t => .value (.array [] :: stack) t
  | afterItem items =>
    match t with
    | .comma => .go .value (.array items :: stack)
    | .closeArray => .complete (.array items.reverse none) stack
    | _ => .halt (.both .malformed)
  | firstName =>
    match t with
    | .closeObject => .complete (.object [] none) stack
    | t => .name [] stack t
  | name members => .name members stack t
  | colon members key =>
    match t with
    | .colon => .go .value (.object members key :: stack)
    | _ => .halt (.both .malformed)
  | afterMember members =>
    match t with
    | .comma => .go (.name members) stack
    | .closeObject => .complete (.object members.reverse none) stack
    | _ => .halt (.both .malformed)

/-- A value that broke off, within the frames around it, which break off too. -/
def Frame.breakOff (stop : Break) (d : Draft) : List Frame → Draft
  | [] => d
  | .array items :: stack => breakOff stop (.array (d :: items).reverse (some stop)) stack
  | .object members name :: stack =>
    breakOff stop (.object ((name, d) :: members).reverse (some stop)) stack

/-- The draft of a text that breaks off at this turn. -/
def Turn.breakOff (turn : Turn) (stack : List Frame) (stop : Break) : Draft :=
  match turn with
  | value => Frame.breakOff stop (.missing stop) stack
  | firstItem => Frame.breakOff stop (.array [] (some stop)) stack
  | afterItem items => Frame.breakOff stop (.array items.reverse (some stop)) stack
  | firstName => Frame.breakOff stop (.object [] (some stop)) stack
  | name members => Frame.breakOff stop (.object members.reverse (some stop)) stack
  | colon members key => Frame.breakOff stop (.missing stop) (.object members key :: stack)
  | afterMember members => Frame.breakOff stop (.object members.reverse (some stop)) stack

/-- Runs the machine until the outermost value is complete or the text breaks off. -/
def Turn.run (turn : Turn) (stack : List Frame) : List Token → Draft × List Token
  | [] => (turn.breakOff stack (.both .cutShort), [])
  | t :: ts =>
    match turn.move stack t with
    | .go turn stack => turn.run stack ts
    | .done d => (d, ts)
    | .halt stop => (turn.breakOff stack stop, [])

namespace Draft

/-- The draft of a list of tokens, and the tokens behind it. -/
def ofTokens (ts : List Token) : Draft × List Token :=
  Turn.run .value [] ts

/-! ## Use -/

/-- What is reported for a break, if there is one. -/
def stopped (stop : Option Break) : Except Fault Unit :=
  match stop with
  | none => .ok ()
  | some b => .error b.read

/-- What has to have a value. -/
def required {α : Type} : Option α → Except Fault α
  | none => .error .malformed
  | some a => .ok a

/-- The value of a draft, if it is whole and if no more than `room` arrays and
objects are open at once. -/
def value : (room : Nat) → Draft → Except Fault Value
  | _, null => .ok .null
  | _, bool b => .ok (.bool b)
  | _, number n => do .ok (.number (← required n))
  | _, text s => do .ok (.text (← required s))
  | _, missing stop => .error stop.read
  | 0, array .. => .error .malformed
  | 0, object .. => .error .malformed
  | room + 1, array items stop => do
    let vs ← items.mapM (value room)
    stopped stop
    .ok (.array vs)
  | room + 1, object members stop => do
    let ms ← members.mapM fun m => do
      let name ← required m.1
      let v ← value room m.2
      .ok (name, v)
    stopped stop
    .ok (.object ms)

/-- A draft that nobody asks for has to be whole, and that is all. -/
def skip : Draft → Except Fault Unit
  | array _ (some stop) => .error stop.skip
  | object _ (some stop) => .error stop.skip
  | missing stop => .error stop.skip
  | _ => .ok ()

end Draft

end VerifiedLinks.Json
