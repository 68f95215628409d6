import VerifiedLinks.Proofs.Link.Paths
import VerifiedLinks.Route.Validity

/-!
# Well-formed routes

A route is well formed if each of its nodes keeps a rule, and two rules matter to links.  A
literal is one segment (`Step.check_segment_eq_ok_iff`), and a verb carries what its method
asks for (`Verb.check_eq_ok_iff`).

Well-formedness passes from a tree to its endpoints and back (`Route.wellFormed_iff_endpoints`).
It also passes to what an API offers, though nobody checks a target.  Literals and modifiers of
the target are nodes of the API, and its verb keeps the rule because that of the API does
(`Verb.Admits.check`).  Only captures of a target are its own, so the target must have none
(`Route.Offers.wellFormed`).
-/

namespace VerifiedLinks

/-! ## The rules of nodes -/

/-- A literal passes if it is neither empty nor cut by a slash. -/
theorem Step.check_segment_eq_ok_iff {literal : String} :
    (segment literal).check = .ok () ↔ literal ≠ "" ∧ '/' ∉ literal.toList := by
  rw [check]
  by_cases hempty : literal = ""
  · simp [hempty]
  · by_cases hslash : '/' ∈ literal.toList
    · simp [hempty, hslash]
    · simp [hempty, hslash]

/-- A `DELETE` carries nothing, and every other verb has a response with a name. -/
theorem Verb.check_eq_ok_iff {v : Verb} :
    v.check = .ok () ↔
      (v.method = .delete → v.response = none ∧ v.contentTypes = []) ∧
      (v.method ≠ .delete → ∃ type, v.response = some type ∧ type ≠ "") := by
  obtain ⟨method, contentTypes, response⟩ := v
  cases response with
  | none => cases method <;> simp [check]
  | some type => cases method <;> simp [check, checkType]

/-- A verb that keeps its rule admits only verbs that do. -/
theorem Verb.Admits.check {v w : Verb} (h : v.Admits w) (hv : v.check = .ok ()) :
    w.check = .ok () := by
  rw [check_eq_ok_iff] at hv ⊢
  rw [h.method, h.response]
  refine ⟨fun hmethod => ?_, hv.2⟩
  obtain ⟨hresponse, hcts⟩ := hv.1 hmethod
  exact ⟨hresponse, List.subset_nil.mp (hcts ▸ h.contentTypes)⟩

namespace Route

/-- A path is well formed exactly if all its literals and its verb are. -/
theorem wellFormed_path_iff {segments : List String} {v : Verb} :
    (path segments v).WellFormed ↔
      (∀ s ∈ segments, s ≠ "" ∧ '/' ∉ s.toList) ∧ v.check = .ok () := by
  induction segments with
  | nil => simp [wellFormed_verb]
  | cons s segments ih =>
      rw [path_cons, wellFormed_step, Step.check_segment_eq_ok_iff, ih, List.forall_mem_cons,
        and_assoc, and_assoc, and_assoc]

/-! ## Endpoints -/

/-- A tree is well formed exactly if its endpoints are. -/
theorem wellFormed_iff_endpoints {r : Route} :
    r.WellFormed ↔ ∀ e ∈ r.endpoints, e.WellFormed := by
  induction r with
  | alt left right ihl ihr =>
      rw [wellFormed_alt, endpoints_alt, List.forall_mem_append, ihl, ihr]
  | step s rest ih =>
      rw [wellFormed_step, endpoints_step, List.forall_mem_map, ih]
      simp only [wellFormed_step]
      constructor
      · rintro ⟨hs, hrest⟩ e he
        exact ⟨hs, hrest e he⟩
      · -- There is an endpoint, so the step is seen through it.
        intro h
        obtain ⟨e, he⟩ := List.exists_mem_of_length_pos (rest.length_endpoints ▸ rest.count_pos)
        exact ⟨(h e he).1, fun e he => (h e he).2⟩
  | verb v => simp

/-! ## Targets -/

/-- What a well-formed API offers is well formed, if there are no captures in it. -/
theorem Offers.wellFormed {api t : Route} (h : Offers api t) (hapi : api.WellFormed)
    (ht : t.CaptureFree) : t.WellFormed := by
  induction h with
  | left _ ih => exact ih (wellFormed_alt.mp hapi).1 ht
  | right _ ih => exact ih (wellFormed_alt.mp hapi).2 ht
  | @step s s' a t hs _ ih =>
      obtain ⟨hcheck, ha⟩ := wellFormed_step.mp hapi
      cases s' with
      | segment literal =>
          rw [hs.eq_segment] at hcheck
          exact wellFormed_step.mpr ⟨hcheck, ih ha ht⟩
      | capture name type => exact absurd ht id
      | modifier m =>
          rw [hs.eq_modifier] at hcheck
          exact wellFormed_step.mpr ⟨hcheck, ih ha ht⟩
  | pass _ ih => exact ih (wellFormed_step.mp hapi).2 ht
  | verb hv => exact hv.check hapi

end Route

end VerifiedLinks
