import VerifiedLinks.Proofs.Route.WellFormed

/-!
# Choices

A choice between routes, one after the other, offers what its members offer and nothing of its
own.  Its endpoints are those of the members, in their order (`endpoints_choice`), it contains
what some member contains (`contains_choice_iff`), and it is well formed exactly if all members
are (`wellFormed_choice_iff`).  There is a choice between the members of any list but the empty
one (`exists_choice_eq`).

A choice is either its only member, or an alternative of the first member and the choice between
the others.  All that is said of choices follows these two cases (`IsChoice`).
-/

namespace VerifiedLinks.Route

theorem choice_cons {r c : Route} {rs : List Route} (h : choice rs = some c) :
    choice (r :: rs) = some (alt r c) := by
  simp [choice, h]

theorem exists_choice_eq (r : Route) (rs : List Route) : ∃ c, choice (r :: rs) = some c :=
  ⟨_, rfl⟩

/-! ## How choices are made -/

/-- The route is the choice between the members of the list. -/
inductive IsChoice : List Route → Route → Prop
  | single (r : Route) : IsChoice [r] r
  | cons (r : Route) {rs : List Route} {c : Route} : IsChoice rs c → IsChoice (r :: rs) (alt r c)

/-- Alternatives are nested to the right, in the order of the members. -/
theorem choice_eq_some_iff {rs : List Route} {c : Route} : choice rs = some c ↔ IsChoice rs c := by
  constructor
  · intro h
    induction rs generalizing c with
    | nil => cases h
    | cons r rs ih =>
        cases rs with
        | nil =>
            cases h
            exact .single r
        | cons r' rs =>
            obtain ⟨below, hbelow⟩ := exists_choice_eq r' rs
            rw [choice_cons hbelow] at h
            cases h
            exact .cons r (ih hbelow)
  · intro h
    induction h with
    | single r => rfl
    | cons r _ ih => exact choice_cons ih

/-! ## What choices offer -/

variable {rs : List Route} {c : Route}

/-- The endpoints of a choice are those of its members, one behind the other. -/
theorem endpoints_choice (h : choice rs = some c) : c.endpoints = rs.flatMap endpoints := by
  rw [choice_eq_some_iff] at h
  induction h with
  | single r => simp
  | cons r _ ih => rw [endpoints_alt, ih, List.flatMap_cons]

/-- A choice contains what some member contains. -/
theorem contains_choice_iff {t : Route} (h : choice rs = some c) :
    c.contains t = true ↔ ∃ r ∈ rs, r.contains t = true := by
  rw [choice_eq_some_iff] at h
  induction h with
  | single r => simp
  | cons r _ ih => simp [ih]

theorem wellFormed_choice_iff (h : choice rs = some c) :
    c.WellFormed ↔ ∀ r ∈ rs, r.WellFormed := by
  rw [wellFormed_iff_endpoints, endpoints_choice h]
  constructor
  · intro hc r hr
    refine wellFormed_iff_endpoints.mpr fun e he => ?_
    exact hc e (List.mem_flatMap_of_mem hr he)
  · intro hrs e he
    obtain ⟨r, hr, he⟩ := List.mem_flatMap.mp he
    exact wellFormed_iff_endpoints.mp (hrs r hr) e he

end VerifiedLinks.Route
