import VerifiedLinks.Route.Endpoints

/-!
# Chains

A *chain* is a route without alternatives: steps in order, and one verb behind
them.  `Route.chain` builds a chain from its parts, and every route without
alternatives is built that way (`altFree_iff_exists_chain`).  The endpoints of any
route are chains (`altFree_of_mem_endpoints`).
-/

namespace VerifiedLinks.Route

/-! ## Routes without alternatives -/

/-- No node of the route is an alternative. -/
def AltFree : Route → Prop
  | alt .. => False
  | step _ rest => rest.AltFree
  | verb _ => True

@[simp] theorem altFree_alt (left right : Route) : ¬ (alt left right).AltFree := id

@[simp] theorem altFree_step (s : Step) (rest : Route) :
    (step s rest).AltFree ↔ rest.AltFree := Iff.rfl

@[simp] theorem altFree_verb (v : Verb) : (verb v).AltFree := trivial

/-! ## Building -/

/-- Steps, in order, in front of a verb. -/
def chain (ss : List Step) (v : Verb) : Route :=
  ss.foldr step (verb v)

@[simp] theorem chain_nil (v : Verb) : chain [] v = verb v := rfl

@[simp] theorem chain_cons (s : Step) (ss : List Step) (v : Verb) :
    chain (s :: ss) v = step s (chain ss v) := rfl

theorem altFree_chain (ss : List Step) (v : Verb) : (chain ss v).AltFree := by
  induction ss with
  | nil => exact trivial
  | cons s ss ih => exact ih

/-- A route without alternatives is a chain of steps to a verb. -/
theorem altFree_iff_exists_chain {r : Route} : r.AltFree ↔ ∃ ss v, r = chain ss v := by
  constructor
  · intro h
    induction r with
    | alt left right => exact absurd h (altFree_alt left right)
    | step s rest ih =>
        obtain ⟨ss, v, hr⟩ := ih h
        exact ⟨s :: ss, v, by rw [hr, chain_cons]⟩
    | verb v => exact ⟨[], v, rfl⟩
  · rintro ⟨ss, v, rfl⟩
    exact altFree_chain ss v

/-! ## Endpoints -/

/-- No endpoint has alternatives. -/
theorem altFree_of_mem_endpoints {r e : Route} (h : e ∈ r.endpoints) : e.AltFree := by
  induction r generalizing e with
  | alt left right ihl ihr =>
      rw [endpoints_alt, List.mem_append] at h
      cases h with
      | inl h => exact ihl h
      | inr h => exact ihr h
  | step s rest ih =>
      rw [endpoints_step, List.mem_map] at h
      obtain ⟨e', he', rfl⟩ := h
      rw [altFree_step]
      exact ih he'
  | verb v =>
      rw [endpoints_verb, List.mem_singleton] at h
      rw [h]
      exact trivial

end VerifiedLinks.Route
