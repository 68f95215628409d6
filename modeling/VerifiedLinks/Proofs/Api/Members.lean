import VerifiedLinks.Api
import VerifiedLinks.Proofs.Route.Nodes

/-!
# APIs with members

An API can be made of a list of routes, its *members*, and it is the choice between them.  What
is asked of it is answered by the members in their order.  It is refused with the error of the
first member that breaks a rule (`ofRoutes_eq_error_iff`).  Its endpoints are those of the members,
one list behind the other (`endpoints_ofRoutes`), and it contains what some member contains
(`contains_ofRoutes_iff`).

Members may have alternatives themselves, and nothing tells these from the alternatives between
the members.  The main statement is `ofRoutes_unites_members`.
-/

namespace VerifiedLinks.Api

variable {rs : List Route}

/-! ## When there is an API -/

theorem ofRoutes_of_choice {root : Route} (h : Route.choice rs = some root) :
    ofRoutes rs = (ofRoute root).map some := by
  rw [ofRoutes, h]

theorem ofRoutes_eq_ok_none_iff : ofRoutes rs = .ok none ↔ rs = [] := by
  cases rs with
  | nil => exact iff_of_true rfl rfl
  | cons r rs =>
      obtain ⟨root, hroot⟩ := Route.exists_choice_eq r rs
      rw [ofRoutes_of_choice hroot]
      cases ofRoute root with
      | ok api => simp [Except.map]
      | error e => simp [Except.map]

theorem ofRoutes_eq_ok_some_iff {api : Api} :
    ofRoutes rs = .ok (some api) ↔ Route.choice rs = some api.root := by
  cases hroot : Route.choice rs with
  | none => simp [ofRoutes, hroot]
  | some root =>
      rw [ofRoutes_of_choice hroot, Option.some.injEq, eq_comm (a := root), ← ofRoute_eq_ok_iff]
      cases ofRoute root with
      | ok api' => simp [Except.map]
      | error e => simp [Except.map]

/-- The error is that of a scan of the members. -/
theorem ofRoutes_eq_error_iff {e : RouteError} :
    ofRoutes rs = .error e ↔ rs.forM Route.check = .error e := by
  cases rs with
  | nil =>
      refine iff_of_false (fun h => ?_) (fun h => ?_)
      · cases h
      · cases h
  | cons r rs =>
      obtain ⟨root, hroot⟩ := Route.exists_choice_eq r rs
      rw [ofRoutes_of_choice hroot, ← Route.check_choice hroot, ← ofRoute_eq_error_iff]
      cases ofRoute root with
      | ok api => simp [Except.map]
      | error e' => simp [Except.map]

/-- There is an API exactly if there are members and all of them are well formed. -/
theorem exists_ofRoutes_iff :
    (∃ api, ofRoutes rs = .ok (some api)) ↔ rs ≠ [] ∧ ∀ r ∈ rs, r.WellFormed := by
  constructor
  · rintro ⟨api, h⟩
    rw [ofRoutes_eq_ok_some_iff] at h
    refine ⟨?_, (Route.wellFormed_choice_iff h).mp api.wellFormed⟩
    rintro rfl
    cases h
  · rintro ⟨hne, hwell⟩
    obtain ⟨r, rs, rfl⟩ := List.exists_cons_of_ne_nil hne
    obtain ⟨root, hroot⟩ := Route.exists_choice_eq r rs
    exact ⟨⟨root, (Route.wellFormed_choice_iff hroot).mpr hwell⟩,
      ofRoutes_eq_ok_some_iff.mpr hroot⟩

/-! ## What the API offers -/

/-- The endpoints of the members stand one behind the other. -/
theorem endpoints_ofRoutes {api : Api} (h : ofRoutes rs = .ok (some api)) :
    api.endpoints = rs.flatMap Route.endpoints :=
  Route.endpoints_choice (ofRoutes_eq_ok_some_iff.mp h)

/-- A target is contained exactly if some member contains it. -/
theorem contains_ofRoutes_iff {api : Api} (h : ofRoutes rs = .ok (some api)) {t : Route} :
    api.contains t = true ↔ ∃ r ∈ rs, r.contains t = true :=
  Route.contains_choice_iff (ofRoutes_eq_ok_some_iff.mp h)

/-- Without members there is no API and nothing is wrong.  If some member breaks a rule the error
is that of the first one that does.  Otherwise there is an API: its endpoints are those of the
members, in order, and it contains what some member contains. -/
theorem ofRoutes_unites_members (rs : List Route) :
    (ofRoutes rs = .ok none ↔ rs = []) ∧
    (∀ e, ofRoutes rs = .error e ↔
      ∃ r, IsFirst (fun r => r.check ≠ .ok ()) rs r ∧ r.check = .error e) ∧
    ((∃ api, ofRoutes rs = .ok (some api)) ↔ rs ≠ [] ∧ ∀ r ∈ rs, r.check = .ok ()) ∧
    ∀ api, ofRoutes rs = .ok (some api) →
      api.endpoints = rs.flatMap Route.endpoints ∧
      ∀ t, api.contains t = true ↔ ∃ r ∈ rs, r.contains t = true := by
  refine ⟨ofRoutes_eq_ok_none_iff, fun e => ?_, exists_ofRoutes_iff, fun api h => ?_⟩
  · rw [ofRoutes_eq_error_iff, forM_eq_error_iff]
  · exact ⟨endpoints_ofRoutes h, fun t => contains_ofRoutes_iff h⟩

/-- The first member has alternatives below a segment, and the second one is a flag in front of
what the first one offers, too. -/
def counters : List Route :=
  [.step (.segment "count") (.alt (.path ["up"] .delete) (.path ["down"] .delete)),
    .step (.modifier (.flag .query "slow")) (.path ["count", "up"] .delete)]

/-- Two members, one of them with two endpoints. -/
theorem ofRoutes_unites_counters :
    ∃ api, ofRoutes counters = .ok (some api) ∧
      api.endpoints = [.path ["count", "up"] .delete, .path ["count", "down"] .delete,
        .step (.modifier (.flag .query "slow")) (.path ["count", "up"] .delete)] ∧
      api.contains (.path ["count", "down"] .delete) = true ∧
      api.contains (.path ["down"] .delete) = false := by
  obtain ⟨_, _, hexists, hoffers⟩ := ofRoutes_unites_members counters
  have hwell : ∀ r ∈ counters, r.WellFormed := by decide
  obtain ⟨api, hapi⟩ := hexists.mpr ⟨List.cons_ne_nil _ _, hwell⟩
  obtain ⟨hendpoints, hcontains⟩ := hoffers api hapi
  refine ⟨api, hapi, hendpoints, ?_, ?_⟩
  · rw [hcontains]
    decide
  · rw [← Bool.not_eq_true, hcontains]
    decide

/-- The second member is the first one to break a rule, although the third one breaks its rule at
the root. -/
example :
    ofRoutes [.path ["a"] .delete, .alt (.path ["b"] .delete) (.path ["c", ""] .delete),
      .verb { method := .get }] = .error .emptySegment := by
  rfl

end VerifiedLinks.Api
