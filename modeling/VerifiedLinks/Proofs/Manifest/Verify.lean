import Mathlib.Data.List.Basic
import VerifiedLinks.Manifest.Basic
import VerifiedLinks.Proofs.NameMap
import VerifiedLinks.Result

/-!
# Verified tables

A report has a table exactly if every outcome in it is a link, and the table then
holds these links under their names (`Report.table_eq_ok_iff`).  So a manifest is
verified if its API is well formed and the links of the table are what its targets
are linked to (`Manifest.verify_eq_ok_iff`).
-/

namespace VerifiedLinks

/-! ## Maps of names -/

namespace NameMap

variable {α β γ ε : Type}

theorem map_congr {f g : α → β} {m : NameMap α} (h : ∀ e ∈ m.entries, f e.2 = g e.2) :
    m.map f = m.map g := by
  refine ext (List.map_congr_left fun e he => ?_)
  rw [h e he]

/-- In two maps with the same images, each image of the one is an image of the other. -/
theorem exists_of_map_eq_map {f : α → γ} {g : β → γ} {m : NameMap α} {n : NameMap β}
    (h : m.map f = n.map g) {e : String × α} (he : e ∈ m.entries) : ∃ b, f e.2 = g b := by
  have hmem : (e.1, f e.2) ∈ (n.map g).entries := h ▸ List.mem_map_of_mem he
  obtain ⟨e', _, he'⟩ := List.mem_map.mp hmem
  exact ⟨e'.2, (congrArg Prod.snd he').symm⟩

theorem filterMap_toOption_map_ok (t : NameMap α) :
    (t.map (.ok : α → Except ε α)).filterMap Except.toOption = t := by
  refine ext ?_
  simp only [map, filterMap, List.filterMap_map]
  exact List.filterMap_some

/-- If there are successes only, nothing is lost when they are taken out. -/
theorem map_ok_filterMap_toOption {m : NameMap (Except ε α)}
    (h : ∀ e ∈ m.entries, ∃ a, e.2 = .ok a) : (m.filterMap Except.toOption).map .ok = m := by
  refine ext ?_
  simp only [map, filterMap, List.map_filterMap]
  refine (List.filterMap_congr fun e he => ?_).trans List.filterMap_some
  obtain ⟨a, ha⟩ := h e he
  rw [ha]
  exact congrArg (fun o => some (e.1, o)) ha.symm

end NameMap

/-! ## Reports -/

theorem failure?_eq_none_iff {ε α : Type} {o : Except ε α} :
    failure? o = none ↔ ∃ a, o = .ok a := by
  cases o with
  | ok a => exact ⟨fun _ => ⟨a, rfl⟩, fun _ => rfl⟩
  | error e => simp [failure?]

namespace Report

theorem isOk_iff {r : Report} : r.isOk = true ↔ ∀ e ∈ r.outcomes.entries, ∃ l, e.2 = .ok l := by
  simp only [isOk, List.all_eq_true, Option.isNone_iff_eq_none, failure?_eq_none_iff]

theorem failures_eq_nil_iff {r : Report} :
    r.failures = [] ↔ ∀ e ∈ r.outcomes.entries, ∃ l, e.2 = .ok l := by
  simp only [failures, NameMap.filterMap, List.filterMap_eq_nil_iff, Option.map_eq_none_iff,
    failure?_eq_none_iff]

/-- The two halves are the links and the failures, each in the order of the outcomes. -/
theorem partition_eq (links : LinkTable) (failures : List (String × LinkError))
    (outcomes : List (String × Except LinkError Link)) :
    partition links failures outcomes =
      (links.insertAll (outcomes.filterMap fun e => e.2.toOption.map (e.1, ·)),
        failures ++ outcomes.filterMap fun e => (failure? e.2).map (e.1, ·)) := by
  induction outcomes generalizing links failures with
  | nil => simp [partition, NameMap.insertAll]
  | cons e outcomes ih =>
      obtain ⟨name, o⟩ := e
      cases o with
      | ok link => simp [partition, ih, failure?, Except.toOption, NameMap.insertAll]
      | error e => simp [partition, ih, failure?, Except.toOption]

/-- A report becomes a table if there are no failures, and is rejected with them otherwise. -/
theorem table_eq (r : Report) : r.table =
    if r.failures = [] then .ok (r.outcomes.filterMap Except.toOption)
    else .error (.rejected r.size r.failures) := by
  have hpartition : partition .empty [] r.outcomes.entries =
      (r.outcomes.filterMap Except.toOption, r.failures) := by
    rw [partition_eq, List.nil_append]
    exact Prod.ext (NameMap.insertAll_eq_of_perm (.refl _)) rfl
  rw [table, hpartition]
  cases r.failures with
  | nil => rfl
  | cons f failures => rfl

/-- The table of a report has a link for each outcome. -/
theorem table_eq_ok_iff {r : Report} {t : LinkTable} :
    r.table = .ok t ↔ r.outcomes = t.map .ok := by
  rw [table_eq]
  constructor
  · intro h
    by_cases hr : r.failures = []
    · rw [if_pos hr] at h
      cases h
      exact (NameMap.map_ok_filterMap_toOption (failures_eq_nil_iff.mp hr)).symm
    · rw [if_neg hr] at h
      cases h
  · intro h
    have hr : r.failures = [] := by
      refine failures_eq_nil_iff.mpr fun e he => ?_
      rw [h] at he
      obtain ⟨e', _, rfl⟩ := List.mem_map.mp he
      exact ⟨e'.2, rfl⟩
    rw [if_pos hr, h, NameMap.filterMap_toOption_map_ok]

end Report

/-! ## Manifests -/

namespace Manifest

theorem checkTargets_eq_ok_iff {targets : List (String × Route)} :
    checkTargets targets = .ok () ↔ ∀ e ∈ targets, e.2.WellFormed := by
  induction targets with
  | nil => simp [checkTargets]
  | cons e targets ih =>
      rw [checkTargets, seq_eq_ok, mapError_eq_ok_iff, ih, List.forall_mem_cons, Route.WellFormed]

/-- A manifest is valid exactly if its API and all its targets are well formed. -/
theorem validate_eq_ok_iff {m : Manifest} :
    m.validate = .ok () ↔ m.api.WellFormed ∧ ∀ e ∈ m.links.entries, e.2.WellFormed := by
  rw [validate, seq_eq_ok, mapError_eq_ok_iff, checkTargets_eq_ok_iff, Route.WellFormed]

theorem getApi_eq_ok_iff {m : Manifest} {api : Api} : m.getApi = .ok api ↔ api.root = m.api := by
  rw [← Api.ofRoute_eq_ok_iff, getApi, mapError_eq_ok_iff]

/-- A check gives the outcome of each target. -/
theorem check_eq_ok_iff {m : Manifest} {r : Report} :
    m.check = .ok r ↔ m.api.WellFormed ∧ r = ⟨m.links.map m.api.link⟩ := by
  rw [check, bind_eq_ok]
  constructor
  · rintro ⟨api, hapi, hr⟩
    cases hr
    rw [getApi_eq_ok_iff] at hapi
    rw [← hapi]
    exact ⟨api.wellFormed, rfl⟩
  · rintro ⟨hw, rfl⟩
    exact ⟨⟨m.api, hw⟩, getApi_eq_ok_iff.mpr rfl, rfl⟩

/-- A manifest is verified exactly if its API is well formed and each target has its link in the
table. -/
theorem verify_eq_ok_iff {m : Manifest} {t : LinkTable} :
    m.verify = .ok t ↔ m.api.WellFormed ∧ m.links.map m.api.link = t.map .ok := by
  rw [verify, bind_eq_ok]
  constructor
  · rintro ⟨r, hr, ht⟩
    obtain ⟨hw, rfl⟩ := check_eq_ok_iff.mp hr
    exact ⟨hw, Report.table_eq_ok_iff.mp ht⟩
  · rintro ⟨hw, ht⟩
    exact ⟨_, check_eq_ok_iff.mpr ⟨hw, rfl⟩, Report.table_eq_ok_iff.mpr ht⟩

end Manifest

end VerifiedLinks
