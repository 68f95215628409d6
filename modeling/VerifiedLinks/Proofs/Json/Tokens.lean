import VerifiedLinks.Json.Draft

/-!
# The tokens of a value

A value is written by a list of tokens (`Value.tokens`), and it has a draft in which
nothing breaks off (`Value.draft`).  The machine that puts drafts together makes the
one out of the other, whatever follows (`Draft.ofTokens_tokens`).

The induction is on the value, and it has to be about a machine in the middle of its
work.  So `Turn.run_tokens` speaks of any frames around the value, and
`Frame.resume` says how the machine goes on within them once the value is complete.
-/

namespace VerifiedLinks.Json

/-! ## Tokens and drafts -/

namespace Value

mutual

/-- The tokens by which a value is written. -/
def tokens : Value → List Token
  | null => [.null]
  | bool b => [.bool b]
  | number n => [.number (some n)]
  | text s => [.text (some s)]
  | array items => .openArray :: [.comma].intercalate (itemsTokens items) ++ [.closeArray]
  | object members => .openObject :: [.comma].intercalate (membersTokens members) ++ [.closeObject]

/-- The tokens of each of some values. -/
def itemsTokens : List Value → List (List Token)
  | [] => []
  | v :: vs => v.tokens :: itemsTokens vs

/-- The tokens of each of some members. -/
def membersTokens : List (String × Value) → List (List Token)
  | [] => []
  | (name, v) :: ms => (.text (some name) :: .colon :: v.tokens) :: membersTokens ms

end

mutual

/-- The draft of a value. -/
def draft : Value → Draft
  | null => .null
  | bool b => .bool b
  | number n => .number (some n)
  | text s => .text (some s)
  | array items => .array (itemsDraft items) none
  | object members => .object (membersDraft members) none

/-- The drafts of some values. -/
def itemsDraft : List Value → List Draft
  | [] => []
  | v :: vs => v.draft :: itemsDraft vs

/-- The drafts of some members. -/
def membersDraft : List (String × Value) → List (Option String × Draft)
  | [] => []
  | (name, v) :: ms => (some name, v.draft) :: membersDraft ms

end

/-- A member with the draft of its value. -/
def memberDraft (m : String × Value) : Option String × Draft := (some m.1, m.2.draft)

/-- The tokens of a member. -/
def memberTokens (m : String × Value) : List Token := .text (some m.1) :: .colon :: m.2.tokens

theorem itemsTokens_eq_map (vs : List Value) : itemsTokens vs = vs.map tokens := by
  induction vs with
  | nil => simp [itemsTokens]
  | cons v vs ih => simp [itemsTokens, ih]

theorem membersTokens_eq_map (ms : List (String × Value)) :
    membersTokens ms = ms.map memberTokens := by
  induction ms with
  | nil => simp [membersTokens]
  | cons m ms ih => simp [membersTokens, memberTokens, ih]

theorem itemsDraft_eq_map (vs : List Value) : itemsDraft vs = vs.map draft := by
  induction vs with
  | nil => simp [itemsDraft]
  | cons v vs ih => simp [itemsDraft, ih]

theorem membersDraft_eq_map (ms : List (String × Value)) :
    membersDraft ms = ms.map memberDraft := by
  induction ms with
  | nil => simp [membersDraft]
  | cons m ms ih => simp [membersDraft, memberDraft, ih]

/-- The draft of an array has the drafts of its items. -/
@[simp] theorem draft_array (vs : List Value) : (array vs).draft = .array (vs.map draft) none := by
  rw [draft, itemsDraft_eq_map]

/-- The draft of an object has the drafts of its members. -/
@[simp] theorem draft_object (ms : List (String × Value)) :
    (object ms).draft = .object (ms.map memberDraft) none := by
  rw [draft, membersDraft_eq_map]

end Value

/-- A separated list, with each separator in front of what it separates from. -/
theorem intercalate_cons {α : Type} (sep : α) (xs : List α) (xss : List (List α)) :
    [sep].intercalate (xs :: xss) = xs ++ xss.flatMap (sep :: ·) := by
  induction xss generalizing xs with
  | nil => simp [List.intercalate]
  | cons ys xss ih =>
      have h : [sep].intercalate (xs :: ys :: xss) =
          xs ++ sep :: [sep].intercalate (ys :: xss) := by
        simp [List.intercalate]
      rw [h, ih ys, List.flatMap_cons, List.cons_append]

/-! ## The machine -/

/-- What the machine makes of a complete value within some frames. -/
def Frame.resume (d : Draft) : List Frame → List Token → Draft × List Token
  | [], ts => (d, ts)
  | .array items :: stack, ts => Turn.run (.afterItem (d :: items)) stack ts
  | .object members name :: stack, ts => Turn.run (.afterMember ((name, d) :: members)) stack ts

namespace Turn

/-- A token that completes a draft hands it to the frame below. -/
theorem run_complete {turn : Turn} {stack stack' : List Frame} {t : Token} {d : Draft}
    (h : turn.move stack t = Move.complete d stack') (ts : List Token) :
    turn.run stack (t :: ts) = Frame.resume d stack' ts := by
  rw [run, h]
  rcases stack' with _ | ⟨_ | _, _⟩
  · rfl
  · rfl
  · rfl

/-- The first token of a value closes no array, so the first item of an array is met
like any other value. -/
theorem run_firstItem (v : Value) (stack : List Frame) (ts : List Token) :
    run .firstItem stack (v.tokens ++ ts) = run .value (.array [] :: stack) (v.tokens ++ ts) := by
  cases v with
  | null => rfl
  | bool b => rfl
  | number n => rfl
  | text s => rfl
  | array items => simp only [Value.tokens, List.cons_append, run, move, Move.value]
  | object members => simp only [Value.tokens, List.cons_append, run, move, Move.value]

/-- The machine makes the draft of a value of its tokens. -/
def Takes (v : Value) : Prop :=
  ∀ stack ts, run .value stack (v.tokens ++ ts) = Frame.resume v.draft stack ts

/-- Behind an item, more items are taken until the bracket closes. -/
theorem run_items {vs : List Value} (hv : ∀ v ∈ vs, Takes v) (items : List Draft)
    (stack : List Frame) (ts : List Token) :
    run (.afterItem items) stack
        ((vs.map Value.tokens).flatMap (Token.comma :: ·) ++ .closeArray :: ts) =
      Frame.resume (.array (items.reverse ++ vs.map Value.draft) none) stack ts := by
  induction vs generalizing items with
  | nil => simpa using run_complete rfl ts
  | cons v vs ih =>
      obtain ⟨hv, hvs⟩ := List.forall_mem_cons.mp hv
      simp only [List.map_cons, List.flatMap_cons, List.cons_append, List.append_assoc]
      rw [run]
      simp only [move]
      rw [hv, Frame.resume, ih hvs]
      simp

/-- Behind a member, more members are taken until the bracket closes. -/
theorem run_members {ms : List (String × Value)} (hm : ∀ m ∈ ms, Takes m.2)
    (members : List (Option String × Draft)) (stack : List Frame) (ts : List Token) :
    run (.afterMember members) stack
        ((ms.map Value.memberTokens).flatMap (Token.comma :: ·) ++ .closeObject :: ts) =
      Frame.resume (.object (members.reverse ++ ms.map Value.memberDraft) none) stack ts := by
  induction ms generalizing members with
  | nil => simpa using run_complete rfl ts
  | cons m ms ih =>
      obtain ⟨hm, hms⟩ := List.forall_mem_cons.mp hm
      simp only [List.map_cons, List.flatMap_cons, List.cons_append, List.append_assoc,
        Value.memberTokens, run, move, Move.name]
      rw [hm, Frame.resume, ih hms]
      simp [Value.memberDraft]

/-- From the tokens of a value its draft is built, whatever stands around them. -/
theorem run_tokens (v : Value) : Takes v := by
  intro stack ts
  induction v generalizing stack ts with
  | null => exact run_complete rfl ts
  | bool b => exact run_complete rfl ts
  | number n => exact run_complete rfl ts
  | text s => exact run_complete rfl ts
  | array items ih =>
      cases items with
      | nil =>
          simp only [Value.tokens, Value.itemsTokens, List.intercalate_nil]
          exact run_complete rfl ts
      | cons v vs =>
          obtain ⟨hv, hvs⟩ := List.forall_mem_cons.mp ih
          simp only [Value.tokens, Value.itemsTokens_eq_map, List.map_cons, intercalate_cons,
            List.cons_append, List.append_assoc]
          rw [run]
          simp only [move, Move.value]
          rw [run_firstItem, hv, Frame.resume, List.nil_append, run_items hvs]
          simp
  | object members ih =>
      cases members with
      | nil =>
          simp only [Value.tokens, Value.membersTokens, List.intercalate_nil]
          exact run_complete rfl ts
      | cons m ms =>
          obtain ⟨hm, hms⟩ := List.forall_mem_cons.mp ih
          simp only [Value.tokens, Value.membersTokens_eq_map, List.map_cons, intercalate_cons,
            List.cons_append, List.append_assoc, Value.memberTokens, run, move, Move.value,
            Move.name]
          rw [hm, Frame.resume, List.nil_append, run_members hms]
          simp [Value.memberDraft]

end Turn

/-- The draft of the tokens of a value, with what follows them. -/
theorem Draft.ofTokens_tokens (v : Value) (ts : List Token) :
    ofTokens (v.tokens ++ ts) = (v.draft, ts) :=
  Turn.run_tokens v [] ts

end VerifiedLinks.Json
