import VerifiedLinks.Link
import VerifiedLinks.Route.Endpoints

/-!
# Literal prefixes

A route begins with literal segments, perhaps with none at all, and below the last of them
stands the first node that is no literal segment (`Route.LongestPrefix`).  Three walks go down
a route as far as that.

* The search for a node that keeps the route from being a link ends there.  It finds the node,
  unless the node is a verb (`firstIneligible?_eq_some_iff`, `firstIneligible?_eq_none_iff`).
* The path of a link is made of the segments above it (`LongestPrefix.literalPath_eq`).
* The pattern of a path begins with the same segments, but it goes on below.  On a link there
  is nothing left to add (`pathPattern_path`), so the shorter walk may be taken
  (`quickPattern_eq`).

Every route has one longest prefix and one only, and a route is a link exactly if a verb lies
below it.  The main statement is `prefixWalks_agree`.
-/

namespace VerifiedLinks.Route

variable {r node node' : Route} {segments segments' : List String}

/-! ## Literal segments in front of a route -/

/-- Literal segments, in order, in front of a route. -/
def behind (segments : List String) (r : Route) : Route :=
  segments.foldr (fun s r => step (.segment s) r) r

@[simp] theorem behind_nil (r : Route) : behind [] r = r := rfl

@[simp] theorem behind_cons (s : String) (segments : List String) (r : Route) :
    behind (s :: segments) r = step (.segment s) (behind segments r) := rfl

theorem path_eq_behind (segments : List String) (v : Verb) :
    path segments v = behind segments (verb v) := rfl

theorem behind_inj : behind segments node = behind segments node' ↔ node = node' := by
  induction segments with
  | nil => exact Iff.rfl
  | cons s segments ih => rw [behind_cons, behind_cons, step.injEq, ih, and_iff_right rfl]

/-- The topmost node is a literal segment. -/
def IsLiteral (r : Route) : Prop :=
  ∃ literal rest, r = step (.segment literal) rest

theorem not_isLiteral_alt (left right : Route) : ¬ (alt left right).IsLiteral := by
  rintro ⟨literal, rest, h⟩
  cases h

theorem not_isLiteral_verb (v : Verb) : ¬ (verb v).IsLiteral := by
  rintro ⟨literal, rest, h⟩
  cases h

/-! ## The longest prefix -/

/-- The route begins with these literal segments and with no more of them, and `node` lies
below. -/
structure LongestPrefix (r : Route) (segments : List String) (node : Route) : Prop where
  eq_behind : r = behind segments node
  longest : ∀ segments' node', r = behind segments' node' → segments' <+: segments

/-- A prefix is the longest one if it is ended by the node below. -/
theorem longestPrefix_behind (segments : List String) (h : ¬ node.IsLiteral) :
    (behind segments node).LongestPrefix segments node := by
  refine ⟨rfl, fun segments' node' heq => ?_⟩
  induction segments generalizing segments' with
  | nil =>
      cases segments' with
      | nil => exact List.prefix_rfl
      | cons s' segments' => exact absurd ⟨s', behind segments' node', heq⟩ h
  | cons s segments ih =>
      cases segments' with
      | nil => exact List.nil_prefix
      | cons s' segments' =>
          simp only [behind_cons, step.injEq, Step.segment.injEq] at heq
          rw [heq.1, List.cons_prefix_cons]
          exact ⟨rfl, ih segments' heq.2⟩

/-- The longest prefix of a path is all of its segments. -/
theorem longestPrefix_path (segments : List String) (v : Verb) :
    (path segments v).LongestPrefix segments (verb v) :=
  longestPrefix_behind segments (not_isLiteral_verb v)

namespace LongestPrefix

theorem not_isLiteral (h : r.LongestPrefix segments node) : ¬ node.IsLiteral := by
  rintro ⟨literal, rest, rfl⟩
  -- The literal below would make the prefix longer.
  have hlonger : r = behind (segments ++ [literal]) rest := by
    rw [h.eq_behind, behind, behind, List.foldr_append]
    rfl
  have hle := (h.longest _ _ hlonger).length_le
  rw [List.length_append, List.length_singleton] at hle
  omega

/-- There is one longest prefix. -/
theorem unique (h : r.LongestPrefix segments node) (h' : r.LongestPrefix segments' node') :
    segments = segments' ∧ node = node' := by
  have hle := h'.longest _ _ h.eq_behind
  have hge := h.longest _ _ h'.eq_behind
  obtain rfl : segments = segments' := hle.eq_of_length_le hge.length_le
  exact ⟨rfl, behind_inj.mp (h.eq_behind.symm.trans h'.eq_behind)⟩

end LongestPrefix

/-- Every route has a longest prefix. -/
theorem exists_longestPrefix (r : Route) : ∃ segments node, r.LongestPrefix segments node := by
  induction r with
  | alt left right => exact ⟨[], _, longestPrefix_behind [] (not_isLiteral_alt left right)⟩
  | step s rest ih =>
      by_cases hs : (step s rest).IsLiteral
      · obtain ⟨literal, rest, hstep⟩ := hs
        cases hstep
        obtain ⟨segments, node, h⟩ := ih
        rw [h.eq_behind, ← behind_cons]
        exact ⟨literal :: segments, node, longestPrefix_behind _ h.not_isLiteral⟩
      · exact ⟨[], _, longestPrefix_behind [] hs⟩
  | verb v => exact ⟨[], _, longestPrefix_path [] v⟩

/-- A path is written in one way only. -/
theorem path_inj {v v' : Verb} :
    path segments v = path segments' v' ↔ segments = segments' ∧ v = v' := by
  constructor
  · intro h
    have hlongest := longestPrefix_path segments v
    rw [h] at hlongest
    obtain ⟨hsegments, hverb⟩ := hlongest.unique (longestPrefix_path segments' v')
    exact ⟨hsegments, verb.inj hverb⟩
  · rintro ⟨rfl, rfl⟩
    rfl

/-! ## The walks -/

/-- Literals are passed over in the search for what stands in the way of a link. -/
theorem firstIneligible?_behind (segments : List String) (r : Route) :
    (behind segments r).firstIneligible? = r.firstIneligible? := by
  induction segments with
  | nil => rfl
  | cons s segments ih => exact ih

/-- A walk that shows a literal segment behind a slash shows all those that it meets. -/
theorem show_behind {f : Route → String}
    (hf : ∀ s rest, f (step (.segment s) rest) = "/" ++ s ++ f rest)
    (segments : List String) (r : Route) :
    f (behind segments r) = String.join (segments.map ("/" ++ ·)) ++ f r := by
  induction segments with
  | nil => exact String.empty_append.symm
  | cons s segments ih =>
      rw [behind_cons, hf, ih, List.map_cons, String.join_cons]
      exact String.append_assoc.symm

theorem literalPath_behind (segments : List String) (r : Route) :
    (behind segments r).literalPath = String.join (segments.map ("/" ++ ·)) ++ r.literalPath :=
  show_behind (fun _ _ => rfl) segments r

theorem pathPattern_behind (segments : List String) (r : Route) :
    (behind segments r).pathPattern = String.join (segments.map ("/" ++ ·)) ++ r.pathPattern :=
  show_behind (fun _ _ => rfl) segments r

theorem literalPath_of_not_isLiteral (h : ¬ r.IsLiteral) : r.literalPath = "" := by
  rw [literalPath]
  rintro literal rest rfl
  exact h ⟨literal, rest, rfl⟩

/-- Whatever is neither a literal nor a verb stands in the way. -/
theorem firstIneligible?_of_not_isLiteral (h : ¬ r.IsLiteral) (hv : ∀ v, r ≠ verb v) :
    r.firstIneligible? = some r := by
  cases r with
  | alt left right => rfl
  | step s rest =>
      cases s with
      | segment literal => exact absurd ⟨literal, rest, rfl⟩ h
      | capture name type => rfl
      | modifier m => rfl
  | verb v => exact absurd rfl (hv v)

/-- The path that is printed is that of the longest prefix. -/
theorem LongestPrefix.literalPath_eq (h : r.LongestPrefix segments node) :
    r.literalPath = String.join (segments.map ("/" ++ ·)) := by
  rw [h.eq_behind, literalPath_behind, literalPath_of_not_isLiteral h.not_isLiteral,
    String.append_empty]

/-- What stands in the way is the node behind the longest prefix. -/
theorem LongestPrefix.firstIneligible?_eq (h : r.LongestPrefix segments node)
    (hv : ∀ v, node ≠ verb v) : r.firstIneligible? = some node := by
  rw [h.eq_behind, firstIneligible?_behind, firstIneligible?_of_not_isLiteral h.not_isLiteral hv]

/-- Nothing keeps a route from being a link exactly if it is made of literal segments and a
verb. -/
theorem firstIneligible?_eq_none_iff :
    r.firstIneligible? = none ↔ ∃ segments v, r = path segments v := by
  constructor
  · intro hnone
    obtain ⟨segments, node, h⟩ := r.exists_longestPrefix
    by_cases hv : ∃ v, node = verb v
    · obtain ⟨v, rfl⟩ := hv
      exact ⟨segments, v, h.eq_behind⟩
    · rw [h.firstIneligible?_eq (not_exists.mp hv)] at hnone
      cases hnone
  · rintro ⟨segments, v, rfl⟩
    exact firstIneligible?_path segments v

/-- What keeps a route from being a link is what lies below its longest prefix, unless that is a
verb. -/
theorem firstIneligible?_eq_some_iff :
    r.firstIneligible? = some node ↔
      (∃ segments, r.LongestPrefix segments node) ∧ ∀ v, node ≠ verb v := by
  constructor
  · intro hsome
    obtain ⟨segments, node', h⟩ := r.exists_longestPrefix
    have hv : ∀ v, node' ≠ verb v := by
      rintro v rfl
      rw [h.eq_behind, ← path_eq_behind, firstIneligible?_path] at hsome
      cases hsome
    rw [h.firstIneligible?_eq hv] at hsome
    cases hsome
    exact ⟨⟨segments, h⟩, hv⟩
  · rintro ⟨⟨segments, h⟩, hv⟩
    exact h.firstIneligible?_eq hv

/-- The routes with a link are the paths. -/
theorem isLink_iff : r.isLink = true ↔ ∃ segments v, r = path segments v := by
  rw [isLink, Option.isNone_iff_eq_none, firstIneligible?_eq_none_iff]

theorem isLink_eq_false_iff : r.isLink = false ↔ ∃ node, r.firstIneligible? = some node := by
  rw [isLink, Option.isNone_eq_false_iff, Option.isSome_iff_exists]

theorem literalPath_path (segments : List String) (v : Verb) :
    (path segments v).literalPath = String.join (segments.map ("/" ++ ·)) :=
  (longestPrefix_path segments v).literalPath_eq

/-- The pattern of a link has nothing in it but the path. -/
theorem pathPattern_path (segments : List String) (v : Verb) :
    (path segments v).pathPattern = (path segments v).literalPath := by
  rw [path_eq_behind, pathPattern_behind, literalPath_behind]
  rfl

/-- The pattern of a path.  That of a link is read by the walk over literal segments alone. -/
def quickPattern (r : Route) : String :=
  if r.isLink then r.literalPath else r.pathPattern

/-- The shorter way to the pattern leads to the same text. -/
theorem quickPattern_eq (r : Route) : r.quickPattern = r.pathPattern := by
  by_cases hlink : r.isLink = true
  · obtain ⟨segments, v, rfl⟩ := isLink_iff.mp hlink
    rw [quickPattern, if_pos hlink, pathPattern_path]
  · rw [quickPattern, if_neg hlink]

/-- A route is a link exactly if it is built of literal segments and a verb, in one way only.
Then its path shows these segments, and so does the pattern of its path.  Any other route has a
first node that keeps it from being a link.  It lies below the longest prefix of literal
segments, and the path shows that prefix. -/
theorem prefixWalks_agree (r : Route) :
    (r.isLink = true ↔ ∃ segments v, r = path segments v) ∧
    (∀ segments v, r = path segments v →
      (∀ segments' v', r = path segments' v' → segments' = segments ∧ v' = v) ∧
      r.literalPath = String.join (segments.map ("/" ++ ·)) ∧ r.pathPattern = r.literalPath) ∧
    (r.isLink = false → ∃ segments node, r.LongestPrefix segments node ∧
      r.firstIneligible? = some node ∧
      r.literalPath = String.join (segments.map ("/" ++ ·))) ∧
    r.quickPattern = r.pathPattern := by
  refine ⟨isLink_iff, ?_, ?_, r.quickPattern_eq⟩
  · rintro segments v rfl
    exact ⟨fun segments' v' h => path_inj.mp h.symm, literalPath_path segments v,
      pathPattern_path segments v⟩
  · intro hlink
    obtain ⟨node, hnode⟩ := isLink_eq_false_iff.mp hlink
    obtain ⟨⟨segments, h⟩, _⟩ := firstIneligible?_eq_some_iff.mp hnode
    exact ⟨segments, node, h, hnode, h.literalPath_eq⟩

/-- The posts of any one user. -/
def userPosts : Route :=
  behind ["users"] (step (.capture "id" "Id") (path ["posts"] .delete))

/-- A path, and a route with a capture in it. -/
theorem prefixWalks_agree_userPosts :
    ((path ["users", "me"] .delete).literalPath = "/users/me" ∧
      (path ["users", "me"] .delete).pathPattern = "/users/me") ∧
    userPosts.isLink = false ∧ ∃ segments node, userPosts.LongestPrefix segments node ∧
      userPosts.firstIneligible? = some node ∧
      userPosts.literalPath = String.join (segments.map ("/" ++ ·)) := by
  obtain ⟨_, hpath, hpattern⟩ :=
    (prefixWalks_agree (path ["users", "me"] .delete)).2.1 ["users", "me"] .delete rfl
  have hshown : String.join (["users", "me"].map ("/" ++ ·)) = "/users/me" := rfl
  have hlink : userPosts.isLink = false := rfl
  exact ⟨⟨hpath.trans hshown, hpattern.trans (hpath.trans hshown)⟩, hlink,
    (prefixWalks_agree userPosts).2.2.1 hlink⟩

end VerifiedLinks.Route
