import VerifiedLinks.Proofs.Route.Heads

/-!
# Displayed routes are unambiguous

A displayed route is a text for people, and nothing reads it.  Still it determines the route
(`Route.eq_of_display_eq`), if no name of a type or of a response has a space or a parenthesis
in it, for such names are shown as they are.  Literals, names of parameters and content types
may be anything, as they are quoted.

Every statement here is about a text together with what stands behind it (`Route.Recovered`).
From `text r ++ x = text r' ++ y` follow `r = r'` and `x = y`, as soon as `x` and `y` begin with
something that cannot belong to the texts before them.

An *operand* is a route as it stands below a step or on the left of an alternative, that is in
parentheses if it is an alternative.  What stands behind an operand may begin with the operator
of an alternative, and still it is not taken for a part of it.  Behind a whole route there may
only be a closing parenthesis.  So the operator between two branches is the first one that no
parentheses stand around.
-/

namespace VerifiedLinks

namespace Route

/-! ## Operands -/

/-- A route as it is shown below a step and on the left of an alternative. -/
def operand (r : Route) : String :=
  parenthesize r.isAlt r.display

theorem isAlt_eq_true_iff {r : Route} : r.isAlt = true ↔ ∃ left right, r = alt left right := by
  cases r with
  | alt left right => exact iff_of_true rfl ⟨left, right, rfl⟩
  | step s rest => simp [isAlt]
  | verb v => simp [isAlt]

theorem operand_of_not_alt {r : Route} (h : r.isAlt = false) : r.operand = r.display := by
  rw [operand, h]
  rfl

variable (left right rest : Route) (s : Step) (v : Verb) (x : String)

theorem display_alt_append :
    (alt left right).display ++ x = left.operand ++ (" :<|> " ++ (right.display ++ x)) := by
  show left.operand ++ " :<|> " ++ right.display ++ x = _
  rw [String.append_assoc, String.append_assoc]

theorem operand_alt_append :
    (alt left right).operand ++ x = "(" ++ ((alt left right).display ++ (")" ++ x)) := by
  show "(" ++ (alt left right).display ++ ")" ++ x = _
  rw [String.append_assoc, String.append_assoc]

theorem operand_step_append :
    (step s rest).operand ++ x = (Node.step s).head ++ (" :> " ++ (rest.operand ++ x)) := by
  show s.head ++ " :> " ++ rest.operand ++ x = _
  rw [String.append_assoc, String.append_assoc]
  rfl

theorem operand_verb_append : (verb v).operand ++ x = (Node.verb v).head ++ x := rfl

theorem stopsAt_operand {r : Route} (h : r.isAlt = false) :
    Text.StopsAt (· == '(') (r.operand ++ x) := by
  have hnode {n : Node} (hn : n ≠ .alt) (x : String) : Text.StopsAt (· == '(') (n.head ++ x) := by
    obtain ⟨c, hc, hne⟩ := Node.exists_head?_eq hn
    exact (Text.stopsAt_append hc).mpr (beq_eq_false_iff_ne.mpr hne)
  cases r with
  | alt left right => cases h
  | step s rest =>
      rw [operand_step_append]
      exact hnode (by simp) _
  | verb v =>
      rw [operand_verb_append]
      exact hnode (by simp) _

/-- By its parenthesis, an alternative is told from everything else. -/
theorem operand_alt_ne {left right r : Route} (h : r.isAlt = false) {x y : String} :
    (alt left right).operand ++ x ≠ r.operand ++ y := by
  intro heq
  have hstop := stopsAt_operand y h
  rw [← heq, operand_alt_append] at hstop
  exact absurd ((Text.stopsAt_append rfl).mp hstop) (by decide)

/-! ## Recovering the tree -/

/-- All nodes keep their rules, and all names of types and responses are plain. -/
def Showable (r : Route) : Prop :=
  ∀ n ∈ r.nodes, n.Showable

/-- The text belongs to no other route, whatever stands behind it, if only that does not go on
with a character of this kind. -/
def Recovered (text : Route → String) (goesOn : Char → Bool) (r : Route) : Prop :=
  ∀ r' x y, r'.Showable → Text.StopsAt goesOn x → Text.StopsAt goesOn y →
    text r ++ x = text r' ++ y → r = r' ∧ x = y

/-- What is left open by a whole route: everything but a closing parenthesis. -/
def leavesOpen (c : Char) : Bool :=
  c != ')'

variable {left right rest s v x}

theorem showable_alt (h : (alt left right).Showable) : left.Showable ∧ right.Showable := by
  constructor
  · intro n hn
    exact h n (List.mem_cons_of_mem _ (List.mem_append_left _ hn))
  · intro n hn
    exact h n (List.mem_cons_of_mem _ (List.mem_append_right _ hn))

theorem showable_step (h : (step s rest).Showable) : (Node.step s).Showable ∧ rest.Showable :=
  List.forall_mem_cons.mp h

theorem showable_verb (h : (verb v).Showable) : (Node.verb v).Showable :=
  h _ (List.mem_singleton_self _)

/-! What stands between two texts ends the first of them. -/

theorem stopsAt_below : Text.StopsAt Text.continuesName (" :> " ++ x) :=
  (Text.stopsAt_append rfl).mpr rfl

theorem stopsAt_operator : Text.StopsAt Text.continuesName (" :<|> " ++ x) :=
  (Text.stopsAt_append rfl).mpr rfl

theorem stopsAt_closing : Text.StopsAt leavesOpen (")" ++ x) :=
  (Text.stopsAt_append rfl).mpr rfl

theorem not_stopsAt_operator : ¬ Text.StopsAt leavesOpen (" :<|> " ++ x) := by
  rw [Text.stopsAt_append rfl]
  decide

/-- Where an alternative can end, a name ends as well. -/
theorem stopsAt_of_leavesOpen (hx : Text.StopsAt leavesOpen x) :
    Text.StopsAt Text.continuesName x := by
  refine hx.mono fun c hc => ?_
  have hclosing : c = ')' := by simpa [leavesOpen] using hc
  rw [hclosing]
  rfl

/-- A verb is read back from what it is displayed as. -/
theorem recovered_operand_verb (h : (verb v).Showable) :
    (verb v).Recovered operand Text.continuesName := by
  intro r x y hr hx hy heq
  cases r with
  | alt left right => exact absurd heq.symm (operand_alt_ne rfl)
  | step t rest =>
      rw [operand_verb_append, operand_step_append] at heq
      obtain ⟨hnode, -⟩ := Node.head_append_inj hx stopsAt_below (by simp) (by simp)
        (showable_verb h) (showable_step hr).1 heq
      cases hnode
  | verb w =>
      rw [operand_verb_append, operand_verb_append] at heq
      obtain ⟨hnode, hxy⟩ := Node.head_append_inj hx hy (by simp) (by simp)
        (showable_verb h) (showable_verb hr) heq
      cases hnode
      exact ⟨rfl, hxy⟩

/-- A step is read back if what stands below it is. -/
theorem recovered_operand_step (h : (step s rest).Showable)
    (ih : rest.Recovered operand Text.continuesName) :
    (step s rest).Recovered operand Text.continuesName := by
  intro r x y hr hx hy heq
  cases r with
  | alt left right => exact absurd heq.symm (operand_alt_ne rfl)
  | step t rest' =>
      rw [operand_step_append, operand_step_append] at heq
      obtain ⟨hnode, hbelow⟩ := Node.head_append_inj stopsAt_below stopsAt_below (by simp)
        (by simp) (showable_step h).1 (showable_step hr).1 heq
      cases hnode
      rw [String.append_right_inj] at hbelow
      obtain ⟨rfl, hxy⟩ := ih rest' x y (showable_step hr).2 hx hy hbelow
      exact ⟨rfl, hxy⟩
  | verb w =>
      rw [operand_step_append, operand_verb_append] at heq
      obtain ⟨hnode, -⟩ := Node.head_append_inj stopsAt_below hy (by simp) (by simp)
        (showable_step h).1 (showable_verb hr) heq
      cases hnode

/-- In parentheses an alternative is recovered wherever it stands. -/
theorem recovered_operand_alt (h : (alt left right).Recovered display leavesOpen) :
    (alt left right).Recovered operand Text.continuesName := by
  intro r x y hr hx hy heq
  cases halt : r.isAlt with
  | false => exact absurd heq (operand_alt_ne halt)
  | true =>
      obtain ⟨left', right', rfl⟩ := isAlt_eq_true_iff.mp halt
      rw [operand_alt_append, operand_alt_append, String.append_right_inj] at heq
      obtain ⟨hroute, hclosed⟩ := h _ _ _ hr stopsAt_closing stopsAt_closing heq
      exact ⟨hroute, (String.append_right_inj _).mp hclosed⟩

/-- Without alternatives at the top, the whole is displayed as the operand. -/
theorem recovered_display_of_not_alt {r : Route} (hnot : r.isAlt = false)
    (h : r.Recovered operand Text.continuesName) : r.Recovered display leavesOpen := by
  intro r' x y hr' hx hy heq
  rw [← operand_of_not_alt hnot] at heq
  cases halt : r'.isAlt with
  | false =>
      rw [← operand_of_not_alt halt] at heq
      exact h r' x y hr' (stopsAt_of_leavesOpen hx) (stopsAt_of_leavesOpen hy) heq
  | true =>
      -- The route would be the left branch, and the operator would stand behind it.
      obtain ⟨left, right, rfl⟩ := isAlt_eq_true_iff.mp halt
      rw [display_alt_append] at heq
      obtain ⟨-, hbehind⟩ := h left x _ (showable_alt hr').1 (stopsAt_of_leavesOpen hx)
        stopsAt_operator heq
      exact absurd (hbehind ▸ hx) not_stopsAt_operator

/-- An alternative is read back if its left side is as an operand and its right side as a whole. -/
theorem recovered_display_alt (hl : left.Recovered operand Text.continuesName)
    (hr : right.Recovered display leavesOpen) : (alt left right).Recovered display leavesOpen := by
  intro r x y hshow hx hy heq
  rw [display_alt_append] at heq
  cases halt : r.isAlt with
  | false =>
      rw [← operand_of_not_alt halt] at heq
      obtain ⟨-, hbehind⟩ := hl r _ y hshow stopsAt_operator (stopsAt_of_leavesOpen hy) heq
      exact absurd (hbehind ▸ hy) not_stopsAt_operator
  | true =>
      obtain ⟨left', right', rfl⟩ := isAlt_eq_true_iff.mp halt
      rw [display_alt_append] at heq
      obtain ⟨rfl, hbehind⟩ :=
        hl left' _ _ (showable_alt hshow).1 stopsAt_operator stopsAt_operator heq
      rw [String.append_right_inj] at hbehind
      obtain ⟨rfl, hxy⟩ := hr right' x y (showable_alt hshow).2 hx hy hbehind
      exact ⟨rfl, hxy⟩

/-- A route is recovered as an operand and as a whole.  The induction needs both, for a left
branch and what lies below a step are operands, and a right branch is a whole. -/
theorem recovered {r : Route} (h : r.Showable) :
    r.Recovered operand Text.continuesName ∧ r.Recovered display leavesOpen := by
  induction r with
  | alt left right ihl ihr =>
      obtain ⟨hleft, hright⟩ := showable_alt h
      have hdisplay := recovered_display_alt (ihl hleft).1 (ihr hright).2
      exact ⟨recovered_operand_alt hdisplay, hdisplay⟩
  | step s rest ih =>
      have hoperand := recovered_operand_step h (ih (showable_step h).2).1
      exact ⟨hoperand, recovered_display_of_not_alt rfl hoperand⟩
  | verb v =>
      have hoperand := recovered_operand_verb h
      exact ⟨hoperand, recovered_display_of_not_alt rfl hoperand⟩

/-- The names of all types and responses. -/
def typeNames (r : Route) : List String :=
  r.nodes.filterMap Node.type?

/-- In a well-formed route with plain types all nodes can be read back. -/
theorem showable_of_wellFormed {r : Route} (hr : r.WellFormed)
    (hplain : ∀ type ∈ r.typeNames, Text.IsPlain type) : r.Showable := by
  rw [WellFormed, check_eq_forM_nodes, forM_eq_ok_iff] at hr
  intro n hn
  refine ⟨Node.check_eq_ok_iff.mp (hr n hn), fun type htype => ?_⟩
  exact hplain type (List.mem_filterMap.mpr ⟨n, hn, htype⟩)

/-- A displayed route determines the route, if it is well formed and no name of a type or of a
response holds a space or a parenthesis. -/
theorem eq_of_display_eq {a b : Route} (ha : a.WellFormed) (hb : b.WellFormed)
    (haplain : ∀ type ∈ a.typeNames, Text.IsPlain type)
    (hbplain : ∀ type ∈ b.typeNames, Text.IsPlain type) (h : a.display = b.display) : a = b := by
  have happend : a.display ++ "" = b.display ++ "" := by rw [h]
  have hdisplay := (recovered (showable_of_wellFormed ha haplain)).2
  exact (hdisplay b "" "" (showable_of_wellFormed hb hbplain) Text.stopsAt_empty
    Text.stopsAt_empty happend).1

/-- Alternatives on the left, on the right and below a step, and literals that look like
operators. -/
def nested : Route :=
  alt (alt (path ["a", ":<|> (", "b\""] .delete) (verb ⟨.get, [.other "] (", .json], some "A"⟩))
    (alt (step (.capture ") :> " "Id") (alt (path ["c"] .delete) (path [" "] .delete)))
      (path ["d"] .delete))

/-- Literals that look like operators, and alternatives inside of each other. -/
theorem eq_of_display_eq_nested :
    nested.display =
        "(\"a\" :> \":<|> (\" :> \"b\\\"\" :> Delete :<|> Get '[\"] (\", JSON] A) :<|> " ++
          "Capture \") :> \" Id :> (\"c\" :> Delete :<|> \" \" :> Delete) :<|> \"d\" :> Delete" ∧
      nested =
        alt
          (alt (step (.segment "a") (step (.segment ":<|> (") (step (.segment "b\"")
            (verb .delete)))) (verb ⟨.get, [.other "] (", .json], some "A"⟩))
          (alt (step (.capture ") :> " "Id") (alt (path ["c"] .delete) (path [" "] .delete)))
            (path ["d"] .delete)) := by
  refine ⟨by decide +kernel, eq_of_display_eq rfl rfl ?_ ?_ rfl⟩
  · decide
  · decide

/-- A name with spaces can look like an operator. -/
example : (verb ⟨.get, [], some "A :<|> Delete"⟩).display =
    (alt (verb ⟨.get, [], some "A"⟩) (verb .delete)).display := by
  decide +kernel

end Route

end VerifiedLinks
