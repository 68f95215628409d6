import VerifiedLinks.Proofs.Json.Spelling

/-!
# Nesting

`Token.mostOpen` counts on the tokens of a text how many arrays and objects are open
at once.  For a value that is its depth (`Token.mostOpen_ofText`).

A draft is read as a value only if there is room for its depth: what is read fits into
the room (`Draft.depth_le_of_value`), and what fits is read (`Draft.value_draft`).
-/

namespace VerifiedLinks.Json

/-! ## Open arrays and objects -/

namespace Token

/-- How many arrays and objects are open at once at most, if `n` are open before. -/
def mostOpen (n : Nat) : List Token → Nat
  | [] => n
  | .openArray :: ts => mostOpen (n + 1) ts
  | .openObject :: ts => mostOpen (n + 1) ts
  | .closeArray :: ts => max n (mostOpen (n - 1) ts)
  | .closeObject :: ts => max n (mostOpen (n - 1) ts)
  | _ :: ts => mostOpen n ts

theorem le_mostOpen (n : Nat) (ts : List Token) : n ≤ mostOpen n ts := by
  fun_induction mostOpen n ts with
  | case1 => exact Nat.le_refl _
  | case2 n ts ih => omega
  | case3 n ts ih => omega
  | case4 n ts ih => exact Nat.le_max_left ..
  | case5 n ts ih => exact Nat.le_max_left ..
  | case6 n t ts _ _ _ _ ih => exact ih

/-- While a value is written, as many more are open as it is deep. -/
def Deepens (v : Value) : Prop :=
  ∀ n ts, mostOpen n (v.tokens ++ ts) = max (n + v.depth) (mostOpen n ts)

theorem mostOpen_items {vs : List Value} (hv : ∀ v ∈ vs, Deepens v) (n : Nat) (ts : List Token) :
    mostOpen n ((vs.map Value.tokens).flatMap (Token.comma :: ·) ++ ts) =
      max (n + Value.itemsDepth vs) (mostOpen n ts) := by
  induction vs with
  | nil => simp [Value.itemsDepth, le_mostOpen]
  | cons v vs ih =>
      obtain ⟨hv, hvs⟩ := List.forall_mem_cons.mp hv
      simp only [List.map_cons, List.flatMap_cons, List.cons_append, List.append_assoc, mostOpen]
      rw [hv, ih hvs, Value.itemsDepth]
      omega

theorem mostOpen_members {ms : List (String × Value)} (hm : ∀ m ∈ ms, Deepens m.2) (n : Nat)
    (ts : List Token) :
    mostOpen n ((ms.map Value.memberTokens).flatMap (Token.comma :: ·) ++ ts) =
      max (n + Value.membersDepth ms) (mostOpen n ts) := by
  induction ms with
  | nil => simp [Value.membersDepth, le_mostOpen]
  | cons m ms ih =>
      obtain ⟨hm, hms⟩ := List.forall_mem_cons.mp hm
      simp only [List.map_cons, List.flatMap_cons, List.cons_append, List.append_assoc,
        Value.memberTokens, mostOpen]
      rw [hm, ih hms, Value.membersDepth]
      omega

/-- The tokens of a value open as many brackets at once as the value is deep. -/
theorem mostOpen_tokens (v : Value) : Deepens v := by
  intro n ts
  have hn := Nat.max_eq_right (le_mostOpen n ts)
  induction v generalizing n ts with
  | null => exact hn.symm
  | bool b => exact hn.symm
  | number x => exact hn.symm
  | text s => exact hn.symm
  | array items ih =>
      have hclose : mostOpen (n + 1) (.closeArray :: ts) = max (n + 1) (mostOpen n ts) := rfl
      cases items with
      | nil => exact hclose
      | cons v vs =>
          obtain ⟨hv, hvs⟩ := List.forall_mem_cons.mp fun v hv n ts =>
            ih v hv n ts (Nat.max_eq_right (le_mostOpen n ts))
          simp only [Value.tokens, Value.itemsTokens_eq_map, List.map_cons, intercalate_cons,
            List.cons_append, List.append_assoc, mostOpen]
          rw [hv, mostOpen_items hvs, List.nil_append, hclose, Value.depth, Value.itemsDepth]
          omega
  | object members ih =>
      have hclose : mostOpen (n + 1) (.closeObject :: ts) = max (n + 1) (mostOpen n ts) := rfl
      cases members with
      | nil => exact hclose
      | cons m ms =>
          obtain ⟨hm, hms⟩ := List.forall_mem_cons.mp fun m hm n ts =>
            ih m hm n ts (Nat.max_eq_right (le_mostOpen n ts))
          simp only [Value.tokens, Value.membersTokens_eq_map, List.map_cons, intercalate_cons,
            List.cons_append, List.append_assoc, Value.memberTokens, mostOpen]
          rw [hm, mostOpen_members hms, List.nil_append, hclose, Value.depth, Value.membersDepth]
          omega

end Token

/-- While a text is read, as many arrays and objects are open as the value is deep. -/
theorem mostOpen_ofText {v : Value} {s : String} (h : Token.Spaced v.tokens s.toList) :
    Token.mostOpen 0 (Token.ofText s) = v.depth := by
  have hv := Token.mostOpen_tokens v 0 []
  rw [List.append_nil, Token.mostOpen, Nat.zero_add, Nat.max_zero] at hv
  rw [Token.ofText, h.cut, hv]

/-! ## Room -/

namespace Draft

/-- There is room for a value that is not too deep. -/
theorem value_draft {v : Value} {room : Nat} (h : v.depth ≤ room) :
    value room v.draft = .ok v := by
  induction v generalizing room with
  | null => simp [Value.draft, value]
  | bool b => simp [Value.draft, value]
  | number n => simp [Value.draft, value, required, bind, Except.bind]
  | text s => simp [Value.draft, value, required, bind, Except.bind]
  | array items ih =>
      cases room with
      | zero => cases h
      | succ room =>
          rw [Value.depth_array_le_iff] at h
          have hitems : (items.map Value.draft).mapM (value room) = .ok (items.map id) :=
            mapM_map_eq_ok fun v hv => ih v hv (h v hv)
          rw [Value.draft_array, value, hitems, List.map_id]
          rfl
  | object members ih =>
      cases room with
      | zero => cases h
      | succ room =>
          rw [Value.depth_object_le_iff] at h
          have hmembers : (members.map Value.memberDraft).mapM
              (fun m => do
                let name ← required m.1
                let v ← value room m.2
                .ok (name, v)) = .ok (members.map id) := by
            refine mapM_map_eq_ok fun m hm => ?_
            rw [Value.memberDraft, ih m hm (h m hm)]
            rfl
          rw [Value.draft_object, value, hmembers, List.map_id]
          rfl

/-- A value that is read is flat, or its parts are read with less room. -/
theorem value_eq_ok_cases {room : Nat} {d : Draft} {v : Value} (h : value room d = .ok v) :
    v.depth = 0 ∨ ∃ n, room = n + 1 ∧
      ((∃ vs, v = .array vs ∧ ∀ u ∈ vs, ∃ d', value n d' = .ok u) ∨
        ∃ ms, v = .object ms ∧ ∀ m ∈ ms, ∃ d', value n d' = .ok m.2) := by
  cases d with
  | null =>
      rw [value] at h
      cases h
      exact .inl rfl
  | bool b =>
      rw [value] at h
      cases h
      exact .inl rfl
  | number n =>
      rw [value] at h
      obtain ⟨n', _, h⟩ := bind_eq_ok.mp h
      cases h
      exact .inl rfl
  | text s =>
      rw [value] at h
      obtain ⟨s', _, h⟩ := bind_eq_ok.mp h
      cases h
      exact .inl rfl
  | array items stop =>
      cases room with
      | zero => cases h
      | succ n =>
          rw [value] at h
          obtain ⟨vs, hvs, h⟩ := bind_eq_ok.mp h
          obtain ⟨_, _, h⟩ := bind_eq_ok.mp h
          cases h
          refine .inr ⟨n, rfl, .inl ⟨vs, rfl, fun u hu => ?_⟩⟩
          obtain ⟨d', _, hd⟩ := exists_of_mem_mapM hvs u hu
          exact ⟨d', hd⟩
  | object members stop =>
      cases room with
      | zero => cases h
      | succ n =>
          rw [value] at h
          obtain ⟨ms, hms, h⟩ := bind_eq_ok.mp h
          obtain ⟨_, _, h⟩ := bind_eq_ok.mp h
          cases h
          refine .inr ⟨n, rfl, .inr ⟨ms, rfl, fun m hm => ?_⟩⟩
          obtain ⟨d', _, hd⟩ := exists_of_mem_mapM hms m hm
          obtain ⟨name, _, hd⟩ := bind_eq_ok.mp hd
          obtain ⟨u, hu, hd⟩ := bind_eq_ok.mp hd
          cases hd
          exact ⟨d'.2, hu⟩
  | missing stop =>
      rw [value] at h
      cases h

/-- A value that is read fits into the room. -/
theorem depth_le_of_value {room : Nat} {d : Draft} {v : Value} (h : value room d = .ok v) :
    v.depth ≤ room := by
  induction room generalizing d v with
  | zero =>
      rcases value_eq_ok_cases h with h | ⟨n, hn, _⟩
      · exact Nat.le_of_eq h
      · cases hn
  | succ room ih =>
      rcases value_eq_ok_cases h with h | ⟨n, hn, ⟨vs, rfl, hvs⟩ | ⟨ms, rfl, hms⟩⟩
      · exact h ▸ Nat.zero_le _
      · cases hn
        refine Value.depth_array_le_iff.mpr fun u hu => ?_
        obtain ⟨d', hd⟩ := hvs u hu
        exact ih hd
      · cases hn
        refine Value.depth_object_le_iff.mpr fun m hm => ?_
        obtain ⟨d', hd⟩ := hms m hm
        exact ih hd

end Draft

end VerifiedLinks.Json
