import VerifiedLinks.Proofs.Manifest.Outcomes

/-!
# Checks that fail fast

A check that fails fast stops behind the first target that has no link
(`Report.ThroughFailure`).  So it finds the same links as the full check up to there, and it
lacks something only behind a failure.  Both reports agree on whether there is a failure, and
without one they are the same (`exists_checked`).

With a failure there are two rejections.  That of the full check lists all failures, and that
of the check that fails fast the first of them only (`table_of_throughFailure`).  It counts the
targets up to that one, and so tells its position among the names.

The main statement is `checkFailFast_agrees`.
-/

namespace VerifiedLinks

/-! ## Outcomes up to a failure -/

/-- The outcomes `part` are the beginning of `outcomes` that ends with the first failure, or all
of them if there is no failure. -/
inductive Report.ThroughFailure : (outcomes part : List (String × Except LinkError Link)) → Prop
  | whole {outcomes : List (String × Except LinkError Link)} :
      (∀ o ∈ outcomes, ∃ l, o.2 = .ok l) → ThroughFailure outcomes outcomes
  | cut (before : List (String × Except LinkError Link)) (name : String) (e : LinkError)
      (behind : List (String × Except LinkError Link)) :
      (∀ o ∈ before, ∃ l, o.2 = .ok l) →
      ThroughFailure (before ++ (name, .error e) :: behind) (before ++ [(name, .error e)])

namespace Report.ThroughFailure

variable {outcomes part : List (String × Except LinkError Link)}

theorem cons (name : String) (l : Link) (h : ThroughFailure outcomes part) :
    ThroughFailure ((name, .ok l) :: outcomes) ((name, .ok l) :: part) := by
  cases h with
  | whole hok => exact .whole (List.forall_mem_cons.mpr ⟨⟨l, rfl⟩, hok⟩)
  | cut before name' e behind hok =>
      exact .cut (_ :: before) name' e behind (List.forall_mem_cons.mpr ⟨⟨l, rfl⟩, hok⟩)

/-- What is seen up to a failure is a beginning of the outcomes. -/
theorem begins (h : ThroughFailure outcomes part) : part <+: outcomes := by
  cases h with
  | whole => exact List.prefix_rfl
  | cut before name e behind => exact ⟨behind, by simp⟩

/-- Without a failure nothing is left out. -/
theorem eq_of_forall_ok (h : ThroughFailure outcomes part) (hok : ∀ o ∈ part, ∃ l, o.2 = .ok l) :
    part = outcomes := by
  cases h with
  | whole => rfl
  | cut before name e behind =>
      obtain ⟨l, hl⟩ := hok (name, .error e) (by simp)
      cases hl

end Report.ThroughFailure

/-! ## Rejections -/

namespace Report

variable {r : Report} {before behind : List (String × Except LinkError Link)} {name : String}
  {e : LinkError}

/-- The failures of a report begin with its first one. -/
theorem failures_of_first (hok : ∀ o ∈ before, ∃ l, o.2 = .ok l)
    (hr : r.outcomes.entries = before ++ (name, .error e) :: behind) :
    r.failures = (name, e) :: behind.filterMap fun o => (failure? o.2).map (o.1, ·) := by
  have hnone : (before.filterMap fun o => (failure? o.2).map (o.1, ·)) = [] := by
    rw [List.filterMap_eq_nil_iff]
    intro o ho
    rw [failure?_eq_none_iff.mpr (hok o ho), Option.map_none]
  show (r.outcomes.entries.filterMap fun o => (failure? o.2).map (o.1, ·)) = _
  rw [hr, List.filterMap_append, hnone]
  rfl

/-- A report in which the first failure is known is rejected with it in front. -/
theorem rejected_of_first (hok : ∀ o ∈ before, ∃ l, o.2 = .ok l)
    (hr : r.outcomes.entries = before ++ (name, .error e) :: behind) :
    r.isOk = false ∧ r.table = .error (.rejected r.size
      ((name, e) :: behind.filterMap fun o => (failure? o.2).map (o.1, ·))) := by
  have hfailures := failures_of_first hok hr
  have hne : r.failures ≠ [] := hfailures ▸ List.cons_ne_nil _ _
  constructor
  · rw [Bool.eq_false_iff]
    intro hisOk
    exact hne (failures_eq_nil_iff.mpr (isOk_iff.mp hisOk))
  · rw [table_eq, if_neg hne, hfailures]

/-- The number of targets up to the first failure is its position among the names. -/
theorem length_eq_idxOf (hr : r.outcomes.entries = before ++ (name, .error e) :: behind) :
    before.length = r.outcomes.names.idxOf name := by
  have hnames : r.outcomes.names = before.map Prod.fst ++ name :: behind.map Prod.fst := by
    rw [NameMap.names, hr, List.map_append, List.map_cons]
  have hnew : name ∉ before.map Prod.fst := by
    have hnodup := r.outcomes.names_nodup
    rw [hnames, List.nodup_append] at hnodup
    intro hmem
    exact hnodup.2.2 name hmem name List.mem_cons_self rfl
  rw [hnames, List.idxOf_append_of_notMem hnew, List.idxOf_cons_self, List.length_map]
  rfl

/-- A report that stops at the first failure rejects that one, and the full report the same one
and those behind it. -/
theorem table_of_throughFailure {full early : Report}
    (h : ThroughFailure full.outcomes.entries early.outcomes.entries) :
    early.isOk = full.isOk ∧ (early.isOk = true → early.table = full.table) ∧
      (early.isOk = false → ∃ name e failures,
        full.table = .error (.rejected full.size ((name, e) :: failures)) ∧
        name ∈ full.outcomes.names ∧
        early.table = .error (.rejected (full.outcomes.names.idxOf name + 1) [(name, e)])) := by
  generalize hfull : full.outcomes.entries = outcomes, hearly : early.outcomes.entries = part at h
  cases h with
  | whole hok =>
      have hsame : early = full := congrArg Report.mk (NameMap.ext (hearly.trans hfull.symm))
      have htrue : full.isOk = true := isOk_iff.mpr (hfull ▸ hok)
      rw [hsame]
      exact ⟨rfl, fun _ => rfl, fun hfalse => absurd htrue (hfalse ▸ Bool.false_ne_true)⟩
  | cut before name e behind hok =>
      obtain ⟨hfullOk, hfullTable⟩ := rejected_of_first hok hfull
      obtain ⟨hearlyOk, hearlyTable⟩ := rejected_of_first hok hearly
      -- The early report holds what stands before the failure and the failure itself.
      have hsize : early.size = full.outcomes.names.idxOf name + 1 := by
        rw [← length_eq_idxOf hfull, size, NameMap.size, hearly, List.length_append,
          List.length_singleton]
      have hname : name ∈ full.outcomes.names := by
        rw [NameMap.names, hfull]
        simp
      rw [hearlyOk, hfullOk]
      refine ⟨rfl, fun hok => absurd hok Bool.false_ne_true, fun _ => ?_⟩
      exact ⟨name, e, _, hfullTable, hname, hsize ▸ hearlyTable⟩

end Report

namespace Manifest

/-- A check that stops early sees the outcomes up to the first failure. -/
theorem throughFailure_outcomes (api : Api) (targets : List (String × Route)) :
    Report.ThroughFailure (targets.map fun e => (e.1, api.link e.2))
      (outcomesThroughFailure api targets) := by
  induction targets with
  | nil => exact .whole (List.forall_mem_nil _)
  | cons e targets ih =>
      obtain ⟨name, target⟩ := e
      rw [outcomesThroughFailure, List.map_cons]
      cases hlink : api.link target with
      | ok link => exact ih.cons name link
      | error e => exact .cut [] name e _ (List.forall_mem_nil _)

/-! ## Reports -/

variable {m : Manifest}

/-- For a well-formed API, such a check gives a report. -/
theorem exists_checkFailFast (h : m.api.WellFormed) :
    ∃ r, m.checkFailFast = .ok r ∧
      Report.ThroughFailure m.report.outcomes.entries r.outcomes.entries := by
  have hapi : m.getApi = .ok ⟨m.api, h⟩ := getApi_eq_ok_iff.mpr rfl
  rw [checkFailFast, hapi]
  exact ⟨_, rfl, throughFailure_outcomes ⟨m.api, h⟩ m.links.entries⟩

/-- Both checks end with a report.  It is the beginning of the full one, it has a failure
exactly if some target has no link, and without a failure it is the full one. -/
theorem exists_checked (h : m.api.WellFormed) (failFast : Bool) :
    ∃ r, (if failFast then m.checkFailFast else m.check) = .ok r ∧
      r.outcomes.entries <+: m.report.outcomes.entries ∧
      (r.failures = [] ↔ m.AllLink) ∧ (m.AllLink → r = m.report) := by
  cases failFast with
  | false =>
      exact ⟨m.report, check_of_wellFormed h, List.prefix_rfl, failures_eq_nil_iff_allLink,
        fun _ => rfl⟩
  | true =>
      obtain ⟨r, hr, hthrough⟩ := exists_checkFailFast h
      have hfull (hok : r.failures = []) : r = m.report := by
        rw [Report.failures_eq_nil_iff] at hok
        have hsame : r.outcomes = m.report.outcomes :=
          NameMap.ext (hthrough.eq_of_forall_ok hok)
        exact congrArg Report.mk hsame
      have hnone (hlinks : m.AllLink) : r.failures = [] := by
        rw [Report.failures_eq_nil_iff]
        intro e he
        have hall := Report.failures_eq_nil_iff.mp (failures_eq_nil_iff_allLink.mpr hlinks)
        exact hall e (hthrough.begins.subset he)
      refine ⟨r, hr, hthrough.begins, ⟨fun hok => ?_, hnone⟩, fun hlinks => hfull (hnone hlinks)⟩
      rw [← failures_eq_nil_iff_allLink, ← hfull hok]
      exact hok

/-- Only the API can keep a check from ending with a report, and it keeps both. -/
theorem checkFailFast_eq_error_iff {e : ManifestError} :
    m.checkFailFast = .error e ↔ m.check = .error e := by
  cases hapi : m.getApi with
  | error e' =>
      rw [checkFailFast, check, hapi]
      exact Iff.rfl
  | ok api =>
      rw [checkFailFast, check, hapi]
      refine iff_of_false (fun hearly => ?_) (fun hfull => ?_)
      · cases hearly
      · cases hfull

/-- Both checks fail with the same error, or else the report of the one is the beginning of the
report of the other one that ends with the first failure.  They agree on whether all is well.
If it is, the table is that of the verified manifest, and if it is not, the rejection holds the
first failure of the full one, and its position. -/
theorem checkFailFast_agrees (m : Manifest) :
    (∀ e, m.checkFailFast = .error e ↔ m.check = .error e) ∧
    ∀ full, m.check = .ok full → ∃ early, m.checkFailFast = .ok early ∧
      Report.ThroughFailure full.outcomes.entries early.outcomes.entries ∧
      early.isOk = full.isOk ∧
      (early.isOk = true → early.table = m.verify) ∧
      (early.isOk = false → ∃ name e failures,
        m.verify = .error (.rejected m.links.size ((name, e) :: failures)) ∧
        name ∈ m.links.names ∧
        early.table = .error (.rejected (m.links.names.idxOf name + 1) [(name, e)])) := by
  refine ⟨fun e => checkFailFast_eq_error_iff, fun full hfull => ?_⟩
  obtain ⟨hapi, rfl⟩ := check_eq_ok_iff.mp hfull
  obtain ⟨early, hearly, hthrough⟩ := exists_checkFailFast hapi
  obtain ⟨hisOk, htable, hrejected⟩ := Report.table_of_throughFailure hthrough
  have hnames : m.report.outcomes.names = m.links.names := NameMap.names_map _ _
  have hsize : m.report.size = m.links.size := List.length_map _
  rw [hnames, hsize, ← verify_of_wellFormed hapi] at hrejected
  rw [← verify_of_wellFormed hapi] at htable
  exact ⟨early, hearly, hthrough, hisOk, htable, hrejected⟩

/-- A manifest whose second and fourth targets are not offered. -/
def halfStale : Manifest where
  api := .path ["a"] .delete
  links := (((NameMap.empty.insert "1" (.path ["a"] .delete)).insert "2"
    (.path ["b"] .delete)).insert "3" (.path ["a"] .delete)).insert "4" (.path ["c"] .delete)

/-- The full check rejects two of four targets, and the other one the first of these, which is
the second target. -/
theorem checkFailFast_agrees_halfStale :
    halfStale.check = .ok halfStale.report ∧
      ∃ early, halfStale.checkFailFast = .ok early ∧ early.isOk = false ∧
        early.table = .error (.rejected 2 [("2", .notContained (.path ["b"] .delete))]) ∧
        halfStale.verify = .error (.rejected 4 [("2", .notContained (.path ["b"] .delete)),
          ("4", .notContained (.path ["c"] .delete))]) := by
  have hcheck : halfStale.check = .ok halfStale.report := rfl
  have hverify : halfStale.verify = .error (.rejected 4 [("2", .notContained (.path ["b"] .delete)),
      ("4", .notContained (.path ["c"] .delete))]) := rfl
  obtain ⟨_, hreports⟩ := checkFailFast_agrees halfStale
  obtain ⟨early, hearly, _, hisOk, _, hrejected⟩ := hreports _ hcheck
  have hfalse : early.isOk = false := hisOk
  obtain ⟨name, e, failures, hfirst, _, htable⟩ := hrejected hfalse
  rw [hverify] at hfirst
  cases hfirst
  exact ⟨hcheck, early, hearly, hfalse, htable, hverify⟩

end Manifest

end VerifiedLinks
