import VerifiedLinks.Proofs.Link.Paths
import VerifiedLinks.Proofs.Link.Prefixes

/-!
# Rejections

A target without a link is rejected for one of two causes: the API does not contain it, or it
has a node that is no literal segment and no verb.  Containment is asked for first.

*The last resort.*  Where no rule of the search applies, `Route.contains` asks whether target and
API are the same tree.  The answer is always no, because a tree meets itself by an earlier rule.
So the search is the same with any other last resort that accepts nothing but equal trees
(`containsOr_eq_contains`), in particular with one that accepts nothing at all.

*Alternatives.*  If the last resort did accept, a target with alternatives could be contained
below some prefix that it shares with the API.  As it is, no such target is contained anywhere
(`link_of_not_altFree`).

*The named node.*  Since a target that is contained has no alternatives, the node that keeps it
from being a link is a capture or a modifier, and only literal segments stand above it
(`exists_behind_of_notLinkable`).

The main statement is `rejections_name_cause`.
-/

namespace VerifiedLinks.Route

variable {api t t' node : Route}

/-! ## The last resort -/

/-- The search with another last resort: what no rule decides is left to `last`. -/
def containsOr (last : (api target : Route) → Bool) : (api target : Route) → Bool
  | alt left right, t => left.containsOr last t || right.containsOr last t
  | step (.segment y) a, step (.segment x) t =>
    if x = y then a.containsOr last t else last (step (.segment y) a) (step (.segment x) t)
  | step (.segment _) a, step (.capture _ _) t => a.containsOr last t
  | step (.capture _ _) a, step (.capture _ _) t => a.containsOr last t
  | step (.modifier m) a, step (.modifier n) t =>
    if n = m then a.containsOr last t else a.containsOr last (step (.modifier n) t)
  | step (.modifier _) a, t => a.containsOr last t
  | verb v, verb w =>
    if w.method = v.method ∧ w.response = v.response then
      isSubList w.contentTypes v.contentTypes
    else last (verb v) (verb w)
  | a, t => last a t

section

variable {last : (api target : Route) → Bool}

/-- On trees that differ such a last resort is as vain as a comparison. -/
theorem last_eq_beq_of_ne (hlast : ∀ a t, last a t = true → t = a) {a t : Route} (hne : t ≠ a) :
    last a t = (t == a) := by
  rw [beq_eq_false_iff_ne.mpr hne, Bool.eq_false_iff]
  intro h
  exact hne (hlast a t h)

/-- Only trees that differ get to the last resort, so it decides nothing if it accepts no such
trees. -/
theorem containsOr_eq_contains (hlast : ∀ a t, last a t = true → t = a) (api t : Route) :
    api.containsOr last t = api.contains t := by
  fun_induction contains api t with
  | case1 left right t ihl ihr => rw [containsOr, ihl, ihr]
  | case2 a literal t ih => rw [containsOr, if_pos rfl, ih]
  | case3 y a x t hne =>
      rw [containsOr, if_neg hne]
      refine last_eq_beq_of_ne hlast ?_
      intro h
      cases h
      exact hne rfl
  | case4 literal a name type t ih => rw [containsOr, ih]
  | case5 name type a name' type' t ih => rw [containsOr, ih]
  | case6 a m t ih => rw [containsOr, if_pos rfl, ih]
  | case7 m a n t hne ih => rw [containsOr, if_neg hne, ih]
  | case8 m a t hother ih =>
      rw [containsOr, ih]
      exact hother
  | case9 v w hagree => rw [containsOr, if_pos hagree]
  | case10 v w hdisagree =>
      rw [containsOr, if_neg hdisagree]
      refine last_eq_beq_of_ne hlast ?_
      intro h
      cases h
      exact hdisagree ⟨rfl, rfl⟩
  | case11 a t halt hsegments hsegment hcaptures hmodifiers hmodifier hverbs =>
      rw [containsOr]
      · refine last_eq_beq_of_ne hlast ?_
        intro h
        subst h
        -- Each kind of node has a rule that applies when it stands on both sides.
        cases t with
        | alt left right => exact halt left right rfl
        | step s rest =>
            cases s with
            | segment literal => exact hsegments literal rest literal rest rfl rfl
            | capture name type => exact hcaptures name type rest name type rest rfl rfl
            | modifier m => exact hmodifier m rest rfl
        | verb v => exact hverbs v v rfl rfl
      all_goals assumption

end

/-! ## Causes -/

/-- A target that is not contained is rejected as such, whatever else is wrong with it. -/
theorem link_eq_notContained_iff :
    api.link t = .error (.notContained t') ↔ api.contains t = false ∧ t' = t := by
  rw [link]
  cases hc : api.contains t with
  | false => simp [eq_comm]
  | true => cases t.firstIneligible? <;> simp

/-- A target that is contained is rejected with the node that stands in the way. -/
theorem link_eq_notLinkable_iff :
    api.link t = .error (.notLinkable t' node) ↔
      api.contains t = true ∧ t.firstIneligible? = some node ∧ t' = t := by
  rw [link]
  cases hc : api.contains t with
  | false => simp
  | true => cases t.firstIneligible? <;> simp [and_comm, eq_comm]

/-- No API has a link to a target with alternatives, and the cause is that it does not contain
the target. -/
theorem link_of_not_altFree (api : Route) (h : ¬ t.AltFree) :
    api.link t = .error (.notContained t) := by
  rw [link_eq_notContained_iff, Bool.eq_false_iff]
  exact ⟨fun hc => h (altFree_of_contains hc), rfl⟩

theorem altFree_behind (segments : List String) (r : Route) :
    (behind segments r).AltFree ↔ r.AltFree := by
  induction segments with
  | nil => exact Iff.rfl
  | cons s segments ih => exact ih

/-- Above the node that is named there are literal segments only, and the node itself is a
capture or a modifier. -/
theorem exists_behind_of_notLinkable (h : api.link t = .error (.notLinkable t' node)) :
    ∃ segments, t = behind segments node ∧ (node.kind = .capture ∨ node.isModifier = true) := by
  obtain ⟨hc, hnode, _⟩ := link_eq_notLinkable_iff.mp h
  obtain ⟨⟨segments, hlongest⟩, hverb⟩ := firstIneligible?_eq_some_iff.mp hnode
  have hfree : t.AltFree := altFree_of_contains hc
  rw [hlongest.eq_behind, altFree_behind] at hfree
  refine ⟨segments, hlongest.eq_behind, ?_⟩
  cases node with
  | alt left right => exact absurd hfree (altFree_alt left right)
  | step s rest =>
      cases s with
      | segment literal => exact absurd ⟨literal, rest, rfl⟩ hlongest.not_isLiteral
      | capture name type => exact .inl rfl
      | modifier m => exact .inr rfl
  | verb v => exact absurd rfl (hverb v)

/-- The search gives the same answers if its last resort accepts nothing.  A target with an
alternative anywhere in it is rejected because it is not contained.  If a target is rejected
because of one of its nodes, the node is a capture or a modifier that stands below literal
segments only. -/
theorem rejections_name_cause (api t : Route) :
    (api.containsOr (fun a t => t == a) t = api.contains t ∧
      api.containsOr (fun _ _ => false) t = api.contains t) ∧
    (¬ t.AltFree → api.link t = .error (.notContained t)) ∧
    ∀ t' node, api.link t = .error (.notLinkable t' node) → t' = t ∧
      ∃ segments, t = behind segments node ∧
        (node.kind = .capture ∨ node.isModifier = true) := by
  refine ⟨⟨?_, ?_⟩, link_of_not_altFree api, ?_⟩
  · exact containsOr_eq_contains (fun _ _ h => beq_iff_eq.mp h) api t
  · exact containsOr_eq_contains (fun _ _ h => absurd h Bool.false_ne_true) api t
  · intro t' node h
    exact ⟨(link_eq_notLinkable_iff.mp h).2.2, exists_behind_of_notLinkable h⟩

/-- An API to delete one account or all of them. -/
def accounts : Route :=
  behind ["accounts"] (alt (step (.capture "id" "Id") (verb .delete)) (verb .delete))

/-- A target in which the account is left open. -/
def anyAccount : Route :=
  behind ["accounts"] (step (.capture "name" "Name") (verb .delete))

/-- Both rejections occur in one API. -/
theorem rejections_name_cause_accounts :
    accounts.link accounts = .error (.notContained accounts) ∧
      accounts.link anyAccount =
        .error (.notLinkable anyAccount (step (.capture "name" "Name") (verb .delete))) ∧
      ∃ segments, anyAccount = behind segments (step (.capture "name" "Name") (verb .delete)) := by
  have hnamed : accounts.link anyAccount =
      .error (.notLinkable anyAccount (step (.capture "name" "Name") (verb .delete))) := rfl
  obtain ⟨_, segments, hsegments, _⟩ := (rejections_name_cause accounts anyAccount).2.2 _ _ hnamed
  exact ⟨(rejections_name_cause accounts accounts).2.1 id, hnamed, segments, hsegments⟩

end VerifiedLinks.Route
