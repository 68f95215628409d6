import VerifiedLinks.Json.Number

/-!
# JSON values

A value is a tree.  The members of an object keep their order, and a name may
occur more than once.  `Value.write` is the text of a value without any space in
it, and `Value.depth` counts how many arrays and objects are open at once while
that text is read.
-/

namespace VerifiedLinks.Json

/-- A JSON value. -/
inductive Value where
  | null
  | bool (b : Bool)
  | number (n : Number)
  | text (s : String)
  | array (items : List Value)
  | object (members : List (String × Value))

/-! ## Strings -/

/-- A control character as four hexadecimal digits. -/
def escapedControl (c : Char) : List Char :=
  ['\\', 'u', '0', '0', Nat.digitChar (c.toNat / 16), Nat.digitChar (c.toNat % 16)]

/-- One character as it is written in a string. -/
def escapeChar (c : Char) : List Char :=
  if c = '"' then ['\\', '"']
  else if c = '\\' then ['\\', '\\']
  else if c = '\x08' then ['\\', 'b']
  else if c = '\x0c' then ['\\', 'f']
  else if c = '\n' then ['\\', 'n']
  else if c = '\r' then ['\\', 'r']
  else if c = '\t' then ['\\', 't']
  else if c.toNat < 0x20 then escapedControl c
  else [c]

/-- A string with its quotes. -/
def writeText (s : String) : String :=
  String.ofList ('"' :: s.toList.flatMap escapeChar ++ ['"'])

/-! ## Trees -/

namespace Value

mutual

/-- The text of a value, without spaces. -/
def write : Value → String
  | null => "null"
  | bool true => "true"
  | bool false => "false"
  | number n => n.text
  | text s => writeText s
  | array items => "[" ++ ",".intercalate (writeItems items) ++ "]"
  | object members => "\x7b" ++ ",".intercalate (writeMembers members) ++ "\x7d"

/-- The texts of some values. -/
def writeItems : List Value → List String
  | [] => []
  | v :: vs => v.write :: writeItems vs

/-- The texts of some members. -/
def writeMembers : List (String × Value) → List String
  | [] => []
  | (name, v) :: ms => (writeText name ++ ":" ++ v.write) :: writeMembers ms

end

mutual

/-- How many arrays and objects are open at once at most. -/
def depth : Value → Nat
  | array items => itemsDepth items + 1
  | object members => membersDepth members + 1
  | _ => 0

/-- The depth of the deepest of some values. -/
def itemsDepth : List Value → Nat
  | [] => 0
  | v :: vs => max v.depth (itemsDepth vs)

/-- The depth of the deepest of some members. -/
def membersDepth : List (String × Value) → Nat
  | [] => 0
  | (_, v) :: ms => max v.depth (membersDepth ms)

end

theorem writeItems_eq_map (vs : List Value) : writeItems vs = vs.map write := by
  induction vs with
  | nil => simp [writeItems]
  | cons v vs ih => simp [writeItems, ih]

theorem writeMembers_eq_map (ms : List (String × Value)) :
    writeMembers ms = ms.map fun m => writeText m.1 ++ ":" ++ m.2.write := by
  induction ms with
  | nil => simp [writeMembers]
  | cons m ms ih => simp [writeMembers, ih]

theorem itemsDepth_le_iff {vs : List Value} {n : Nat} :
    itemsDepth vs ≤ n ↔ ∀ v ∈ vs, v.depth ≤ n := by
  induction vs with
  | nil => simp [itemsDepth]
  | cons v vs ih => simp only [itemsDepth, Nat.max_le, ih, List.forall_mem_cons]

theorem membersDepth_le_iff {ms : List (String × Value)} {n : Nat} :
    membersDepth ms ≤ n ↔ ∀ m ∈ ms, m.2.depth ≤ n := by
  induction ms with
  | nil => simp [membersDepth]
  | cons m ms ih => simp only [membersDepth, Nat.max_le, ih, List.forall_mem_cons]

/-- An array is one deeper than the deepest of its items. -/
theorem depth_array_le_iff {vs : List Value} {n : Nat} :
    (array vs).depth ≤ n + 1 ↔ ∀ v ∈ vs, v.depth ≤ n := by
  simp only [depth, Nat.add_le_add_iff_right, itemsDepth_le_iff]

/-- An object is one deeper than the deepest of its members. -/
theorem depth_object_le_iff {ms : List (String × Value)} {n : Nat} :
    (object ms).depth ≤ n + 1 ↔ ∀ m ∈ ms, m.2.depth ≤ n := by
  simp only [depth, Nat.add_le_add_iff_right, membersDepth_le_iff]

/-- Induction over a value and all values inside it. -/
@[elab_as_elim, induction_eliminator]
theorem induct {P : Value → Prop} (null : P null) (bool : ∀ b, P (bool b))
    (number : ∀ n, P (number n)) (text : ∀ s, P (text s))
    (array : ∀ items, (∀ v ∈ items, P v) → P (array items))
    (object : ∀ members, (∀ m ∈ members, P m.2) → P (object members)) : ∀ v, P v
  | .null => null
  | .bool b => bool b
  | .number n => number n
  | .text s => text s
  | .array items => array items fun v _ => induct null bool number text array object v
  | .object members => object members fun m _ => induct null bool number text array object m.2
decreasing_by
  · have := List.sizeOf_lt_of_mem ‹v ∈ items›
    simp only [Value.array.sizeOf_spec]
    omega
  · have := List.sizeOf_lt_of_mem ‹m ∈ members›
    obtain ⟨name, v⟩ := m
    simp only [Value.object.sizeOf_spec, Prod.mk.sizeOf_spec] at *
    omega

end Value

end VerifiedLinks.Json
