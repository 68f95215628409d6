import VerifiedLinks.Proofs.Route.Choice

/-!
# Nodes

The *nodes* of a route are listed from the root down and from left to right, each without what
lies below it (`Route.nodes`).  A node is *sound* if it keeps its rule (`Node.Sound`).  If it
does not, there is one error to report of it (`Node.Breaks`), and an empty name is reported
before an empty type.

The check of a route is a scan of its nodes (`Route.check_eq_forM_nodes`).  It is a scan of its
endpoints too (`Route.check_eq_forM_endpoints`), though these repeat the steps that they share
and leave out the alternatives.  A step that several endpoints share is met with the first of
them, and there is a first one because no route is without endpoints.

The main statement is `Route.check_reports_first`.
-/

namespace VerifiedLinks

/-! ## Names and types -/

/-- The name that a step gives to what it reads. -/
def Step.name? : Step → Option String
  | segment _ => none
  | capture name _ => some name
  | modifier (.body ..) => none
  | modifier (.param _ _ name _) => some name
  | modifier (.flag _ name) => some name

/-- The type of what a step reads. -/
def Step.type? : Step → Option String
  | segment _ => none
  | capture _ type => some type
  | modifier (.body _ type) => some type
  | modifier (.param _ _ _ type) => some type
  | modifier (.flag ..) => none

/-! ## Nodes and their rules -/

/-- A node without what lies below it. -/
inductive Node where
  | alt
  | step (s : Step)
  | verb (v : Verb)
deriving DecidableEq

namespace Node

/-- The check of a node alone. -/
def check : Node → Except RouteError Unit
  | alt => .ok ()
  | step s => s.check
  | verb v => v.check

/-- The node keeps its rule.  A literal is one segment and not empty, names and types are not
empty, a `DELETE` has no content types and no response, and every other verb has a response
that is not empty. -/
def Sound : Node → Prop
  | alt => True
  | step (.segment literal) => literal ≠ "" ∧ '/' ∉ literal.toList
  | step s => s.name? ≠ some "" ∧ s.type? ≠ some ""
  | verb v => (v.method = .delete → v.response = none ∧ v.contentTypes = []) ∧
      (v.method ≠ .delete → ∃ type, v.response = some type ∧ type ≠ "")

/-- The node breaks its rule, and this is the error to report. -/
inductive Breaks : Node → RouteError → Prop
  | emptySegment : Breaks (step (.segment "")) .emptySegment
  | slash {literal : String} : '/' ∈ literal.toList →
      Breaks (step (.segment literal)) (.segmentContainsSlash literal)
  | emptyName {s : Step} : s.name? = some "" → Breaks (step s) (.emptyName s.kind)
  | emptyType {s : Step} : s.name? ≠ some "" → s.type? = some "" →
      Breaks (step s) (.emptyTypeName s.kind)
  | payload {v : Verb} : v.method = .delete → v.response ≠ none ∨ v.contentTypes ≠ [] →
      Breaks (verb v) .deleteWithPayload
  | noResponse {v : Verb} : v.method ≠ .delete → v.response = none →
      Breaks (verb v) (.missingResponse v.method)
  | emptyResponse {v : Verb} : v.method ≠ .delete → v.response = some "" →
      Breaks (verb v) (.emptyTypeName .verb)

end Node

/-! ## Checks and rules -/

theorem checkName_eq_ok_iff {kind : Kind} {name : String} :
    checkName kind name = .ok () ↔ name ≠ "" := by
  by_cases h : name = "" <;> simp [checkName, h]

theorem checkName_eq_error_iff {kind : Kind} {name : String} {e : RouteError} :
    checkName kind name = .error e ↔ name = "" ∧ .emptyName kind = e := by
  by_cases h : name = "" <;> simp [checkName, h]

theorem checkType_eq_ok_iff {kind : Kind} {type : String} :
    checkType kind type = .ok () ↔ type ≠ "" := by
  by_cases h : type = "" <;> simp [checkType, h]

theorem checkType_eq_error_iff {kind : Kind} {type : String} {e : RouteError} :
    checkType kind type = .error e ↔ type = "" ∧ .emptyTypeName kind = e := by
  by_cases h : type = "" <;> simp [checkType, h]

namespace Step

/-- What is reported of a literal. -/
theorem check_segment_eq_error_iff {literal : String} {e : RouteError} :
    (segment literal).check = .error e ↔
      literal = "" ∧ .emptySegment = e ∨
      '/' ∈ literal.toList ∧ .segmentContainsSlash literal = e := by
  rw [check]
  by_cases hempty : literal = ""
  · simp [hempty]
  · by_cases hslash : '/' ∈ literal.toList <;> simp [hempty, hslash]

theorem kind_eq_segment_iff {s : Step} : s.kind = .segment ↔ ∃ literal, s = segment literal := by
  cases s with
  | segment literal => exact iff_of_true rfl ⟨literal, rfl⟩
  | capture name type => simp [kind]
  | modifier m => cases m <;> simp [kind, Modifier.kind]

/-- All other steps follow one rule: the name comes first, then the type. -/
theorem check_named {s : Step} (h : s.kind ≠ .segment) :
    s.check = (do
      Option.elim s.name? (.ok ()) (checkName s.kind)
      Option.elim s.type? (.ok ()) (checkType s.kind)) := by
  cases s with
  | segment literal => exact absurd rfl h
  | capture name type => rfl
  | modifier m =>
      cases m with
      | body cts type => rfl
      | param place repeated name type => rfl
      | flag place name =>
          show checkName (.flag place) name = (do checkName (.flag place) name; .ok ())
          cases checkName (.flag place) name <;> rfl

/-- A step that is no segment passes if neither its name nor its type is empty. -/
theorem check_named_eq_ok_iff {s : Step} (h : s.kind ≠ .segment) :
    s.check = .ok () ↔ s.name? ≠ some "" ∧ s.type? ≠ some "" := by
  rw [check_named h, seq_eq_ok]
  cases s.name? <;> cases s.type? <;> simp [checkName_eq_ok_iff, checkType_eq_ok_iff]

/-- The name of a step is looked at before its type. -/
theorem check_named_eq_error_iff {s : Step} {e : RouteError} (h : s.kind ≠ .segment) :
    s.check = .error e ↔
      s.name? = some "" ∧ .emptyName s.kind = e ∨
      s.name? ≠ some "" ∧ s.type? = some "" ∧ .emptyTypeName s.kind = e := by
  rw [check_named h, seq_eq_error]
  cases s.name? <;> cases s.type? <;>
    simp [checkName_eq_ok_iff, checkName_eq_error_iff, checkType_eq_error_iff]

end Step

/-- What is reported of a verb. -/
theorem Verb.check_eq_error_iff {v : Verb} {e : RouteError} :
    v.check = .error e ↔
      v.method = .delete ∧ (v.response ≠ none ∨ v.contentTypes ≠ []) ∧ .deleteWithPayload = e ∨
      v.method ≠ .delete ∧ v.response = none ∧ .missingResponse v.method = e ∨
      v.method ≠ .delete ∧ v.response = some "" ∧ .emptyTypeName .verb = e := by
  obtain ⟨method, contentTypes, response⟩ := v
  cases response with
  | none =>
      cases method with
      | delete => by_cases h : contentTypes = [] <;> simp [check, h]
      | get | post | put => simp [check]
  | some type =>
      cases method with
      | delete => simp [check]
      | get | post | put => simp [check, checkType_eq_error_iff]

namespace Node

theorem sound_named_iff {s : Step} (h : s.kind ≠ .segment) :
    (step s).Sound ↔ s.name? ≠ some "" ∧ s.type? ≠ some "" := by
  cases s with
  | segment literal => exact absurd rfl h
  | capture name type => exact Iff.rfl
  | modifier m => exact Iff.rfl

/-- The check of a node passes exactly if it is sound. -/
theorem check_eq_ok_iff {n : Node} : n.check = .ok () ↔ n.Sound := by
  cases n with
  | alt => exact iff_of_true rfl trivial
  | step s =>
      by_cases hs : s.kind = .segment
      · obtain ⟨literal, rfl⟩ := Step.kind_eq_segment_iff.mp hs
        exact Step.check_segment_eq_ok_iff
      · exact (Step.check_named_eq_ok_iff hs).trans (sound_named_iff hs).symm
  | verb v => exact Verb.check_eq_ok_iff

/-- It fails exactly with an error that says which rule the node breaks. -/
theorem check_eq_error_iff {n : Node} {e : RouteError} : n.check = .error e ↔ n.Breaks e := by
  constructor
  · intro h
    cases n with
    | alt => cases h
    | step s =>
        by_cases hs : s.kind = .segment
        · obtain ⟨literal, rfl⟩ := Step.kind_eq_segment_iff.mp hs
          rcases Step.check_segment_eq_error_iff.mp h with ⟨rfl, rfl⟩ | ⟨hslash, rfl⟩
          · exact .emptySegment
          · exact .slash hslash
        · rcases (Step.check_named_eq_error_iff hs).mp h with ⟨hname, rfl⟩ | ⟨hname, htype, rfl⟩
          · exact .emptyName hname
          · exact .emptyType hname htype
    | verb v =>
        rcases Verb.check_eq_error_iff.mp h with
          ⟨hdelete, hpayload, rfl⟩ | ⟨hother, hnone, rfl⟩ | ⟨hother, hempty, rfl⟩
        · exact .payload hdelete hpayload
        · exact .noResponse hother hnone
        · exact .emptyResponse hother hempty
  · intro h
    cases h with
    | emptySegment => rfl
    | slash hslash => exact Step.check_segment_eq_error_iff.mpr (.inr ⟨hslash, rfl⟩)
    | @emptyName s hname =>
        have hs : s.kind ≠ .segment := by
          intro hs
          obtain ⟨literal, rfl⟩ := Step.kind_eq_segment_iff.mp hs
          cases hname
        exact (Step.check_named_eq_error_iff hs).mpr (.inl ⟨hname, rfl⟩)
    | @emptyType s hname htype =>
        have hs : s.kind ≠ .segment := by
          intro hs
          obtain ⟨literal, rfl⟩ := Step.kind_eq_segment_iff.mp hs
          cases htype
        exact (Step.check_named_eq_error_iff hs).mpr (.inr ⟨hname, htype, rfl⟩)
    | payload hdelete hpayload =>
        exact Verb.check_eq_error_iff.mpr (.inl ⟨hdelete, hpayload, rfl⟩)
    | noResponse hother hnone =>
        exact Verb.check_eq_error_iff.mpr (.inr (.inl ⟨hother, hnone, rfl⟩))
    | emptyResponse hother hempty =>
        exact Verb.check_eq_error_iff.mpr (.inr (.inr ⟨hother, hempty, rfl⟩))

/-- A node that breaks its rule is a node that does not keep it. -/
theorem check_ne_ok_iff {n : Node} : n.check ≠ .ok () ↔ ¬ n.Sound :=
  not_congr check_eq_ok_iff

end Node

namespace Route

/-! ## The scan of the nodes -/

/-- The nodes of a route, from the root down and from left to right. -/
def nodes : Route → List Node
  | alt left right => .alt :: (left.nodes ++ right.nodes)
  | step s rest => .step s :: rest.nodes
  | verb v => [.verb v]

/-- The check of a route looks at its nodes one by one. -/
theorem check_eq_forM_nodes (r : Route) : r.check = r.nodes.forM Node.check := by
  induction r with
  | alt left right ihl ihr =>
      show (do left.check; right.check) = (left.nodes ++ right.nodes).forM Node.check
      rw [ihl, ihr, forM_append]
  | step s rest ih =>
      show (do s.check; rest.check) = (do s.check; rest.nodes.forM Node.check)
      rw [ih]
  | verb v =>
      show v.check = (do v.check; .ok ())
      rw [seq_ok]

/-! ## The scan of the endpoints -/

theorem endpoints_ne_nil (r : Route) : r.endpoints ≠ [] :=
  List.ne_nil_of_length_pos (r.length_endpoints ▸ r.count_pos)

/-- The check of a route looks at its endpoints one by one. -/
theorem check_eq_forM_endpoints (r : Route) : r.check = r.endpoints.forM check := by
  induction r with
  | alt left right ihl ihr =>
      show (do left.check; right.check) = (left.endpoints ++ right.endpoints).forM check
      rw [ihl, ihr, forM_append]
  | step s rest ih =>
      show (do s.check; rest.check) = (rest.endpoints.map (step s)).forM check
      rw [ih, forM_map_seq (f := check) (g := step s) (fun _ => rfl) rest.endpoints_ne_nil]
  | verb v =>
      show v.check = (do v.check; .ok ())
      rw [seq_ok]

/-- The check of a choice looks at its members one by one. -/
theorem check_choice {rs : List Route} {c : Route} (h : choice rs = some c) :
    c.check = rs.forM check := by
  rw [choice_eq_some_iff] at h
  induction h with
  | single r =>
      show r.check = (do r.check; .ok ())
      rw [seq_ok]
  | @cons r rs c _ ih =>
      show (do r.check; c.check) = (do r.check; rs.forM check)
      rw [ih]

/-- A route is accepted exactly if all its nodes are sound, and otherwise the error is that of
the first node that is not.  The endpoints are accepted or rejected alike: the error is also
that of the first endpoint that is rejected, and it is the one reported of the choice between
all endpoints. -/
theorem check_reports_first (r : Route) :
    (r.check = .ok () ↔ ∀ n ∈ r.nodes, n.Sound) ∧
    (∀ e, r.check = .error e ↔ ∃ n, IsFirst (fun n => ¬ n.Sound) r.nodes n ∧ n.Breaks e) ∧
    (r.check = .ok () ↔ ∀ x ∈ r.endpoints, x.check = .ok ()) ∧
    (∀ e, r.check = .error e ↔
      ∃ x, IsFirst (fun x => x.check ≠ .ok ()) r.endpoints x ∧ x.check = .error e) ∧
    ∃ c, choice r.endpoints = some c ∧ c.check = r.check := by
  refine ⟨?_, fun e => ?_, ?_, fun e => ?_, ?_⟩
  · rw [check_eq_forM_nodes, forM_eq_ok_iff]
    simp only [Node.check_eq_ok_iff]
  · rw [check_eq_forM_nodes, forM_eq_error_iff]
    simp only [Node.check_ne_ok_iff, Node.check_eq_error_iff]
  · rw [check_eq_forM_endpoints, forM_eq_ok_iff]
  · rw [check_eq_forM_endpoints, forM_eq_error_iff]
  · obtain ⟨x, xs, hcons⟩ := List.exists_cons_of_ne_nil r.endpoints_ne_nil
    obtain ⟨c, hc⟩ := exists_choice_eq x xs
    rw [← hcons] at hc
    exact ⟨c, hc, (check_choice hc).trans r.check_eq_forM_endpoints.symm⟩

/-- The left branch has nothing to report.  In the right one a capture without a name stands
above a literal that is empty. -/
example :
    (alt (path ["a"] .delete) (step (.capture "" "Id") (path [""] .delete))).check =
      .error (.emptyName .capture) :=
  rfl

end Route

end VerifiedLinks
