import VerifiedLinks.Proofs.Manifest.RoundTrip
import VerifiedLinks.Proofs.Manifest.Verify
import VerifiedLinks.Proofs.Text.ByteOrder

/-!
# What becomes of the targets

A check loses no target, adds none, and reports each as it is.  The report, the table of
links and the list of failures are three views of one run, and here they are tied to the
targets of the manifest, one by one.

Each target has one outcome (`get?_outcomes`).  The failures are those outcomes that are
no links (`mem_failures_iff`).  If there are none the table holds all links, and if there
are some they are what a rejection lists (`exists_verify_eq_ok_iff`, `verify_eq_rejected`).
All checks ask for the API first, so one that is not well formed fails them in the same
way (`getApi_of_invalid`), and no manifest that was read has one.

The main statement is `Manifest.outcomes_agree`.
-/

namespace VerifiedLinks

/-- Names stand in the order of their bytes. -/
theorem NameMap.names_bytes_ascending {α : Type} (m : NameMap α) :
    m.names.Pairwise fun s t => Text.utf8 s < Text.utf8 t := by
  rw [names, List.pairwise_map]
  exact m.ascending.imp Text.utf8_lt_of_lt

namespace Manifest

variable {m : Manifest}

/-! ## Outcomes -/

/-- The report on a manifest, if its API is well formed. -/
def report (m : Manifest) : Report := ⟨m.links.map m.api.link⟩

/-- If the API is well formed, the check tells the outcome of every target. -/
theorem check_of_wellFormed (h : m.api.WellFormed) : m.check = .ok m.report :=
  check_eq_ok_iff.mpr ⟨h, rfl⟩

theorem exists_checkFailFast_eq_ok (h : m.api.WellFormed) : ∃ r, m.checkFailFast = .ok r := by
  have hapi : m.getApi = .ok ⟨m.api, h⟩ := getApi_eq_ok_iff.mpr rfl
  rw [checkFailFast, hapi]
  exact ⟨_, rfl⟩

/-- The outcome for a name is that of its target. -/
theorem get?_outcomes (m : Manifest) (name : String) :
    m.report.outcomes.get? name = (m.links.get? name).map m.api.link :=
  NameMap.get?_map m.api.link m.links name

/-- All targets have links. -/
def AllLink (m : Manifest) : Prop :=
  ∀ name target, m.links.get? name = some target → ∃ l, m.api.link target = .ok l

/-! ## Failures -/

/-- The failures are the targets that have no link, each with its own reason. -/
theorem mem_failures_iff {name : String} {e : LinkError} :
    (name, e) ∈ m.report.failures ↔
      ∃ target, m.links.get? name = some target ∧ m.api.link target = .error e := by
  have hfailure (o : Except LinkError Link) : failure? o = some e ↔ o = .error e := by
    cases o with
    | ok l => simp [failure?]
    | error e' => simp [failure?]
  simp only [Report.failures, NameMap.mem_filterMap_iff, hfailure, get?_outcomes,
    Option.map_eq_some_iff]
  constructor
  · rintro ⟨_, ⟨target, htarget, rfl⟩, h⟩
    exact ⟨target, htarget, h⟩
  · rintro ⟨target, htarget, h⟩
    exact ⟨_, ⟨target, htarget, rfl⟩, h⟩

theorem failures_bytes_ascending (r : Report) :
    (r.failures.map Prod.fst).Pairwise fun s t => Text.utf8 s < Text.utf8 t :=
  NameMap.names_bytes_ascending _

/-- There are no failures exactly if all targets have links. -/
theorem failures_eq_nil_iff_allLink : m.report.failures = [] ↔ m.AllLink := by
  rw [List.eq_nil_iff_forall_not_mem]
  constructor
  · intro h name target htarget
    cases hl : m.api.link target with
    | ok l => exact ⟨l, rfl⟩
    | error e => exact absurd (mem_failures_iff.mpr ⟨target, htarget, hl⟩) (h (name, e))
  · rintro h ⟨name, e⟩ hmem
    obtain ⟨target, htarget, he⟩ := mem_failures_iff.mp hmem
    obtain ⟨l, hl⟩ := h name target htarget
    rw [hl] at he
    cases he

/-! ## Verification -/

theorem verify_of_wellFormed (h : m.api.WellFormed) : m.verify = m.report.table := by
  rw [verify, check_of_wellFormed h]
  rfl

/-- There is a table exactly if all targets have links. -/
theorem exists_verify_eq_ok_iff (h : m.api.WellFormed) :
    (∃ table, m.verify = .ok table) ↔ m.AllLink := by
  rw [verify_of_wellFormed h, Report.table_eq, ← failures_eq_nil_iff_allLink]
  by_cases hr : m.report.failures = []
  · rw [if_pos hr]
    exact ⟨fun _ => hr, fun _ => ⟨_, rfl⟩⟩
  · rw [if_neg hr]
    exact ⟨nofun, fun h => absurd h hr⟩

/-- If some target has no link, all failures are told. -/
theorem verify_eq_rejected (h : m.api.WellFormed) (hlinks : ¬ m.AllLink) :
    m.verify = .error (.rejected m.links.size m.report.failures) := by
  have hfailures : m.report.failures ≠ [] :=
    fun hnil => hlinks (failures_eq_nil_iff_allLink.mp hnil)
  have hsize : m.report.size = m.links.size := List.length_map _
  rw [verify_of_wellFormed h, Report.table_eq, if_neg hfailures, hsize]

/-- The table holds the link of each target, and nothing else. -/
theorem names_of_verify {table : LinkTable} (h : m.verify = .ok table) :
    table.names = m.links.names := by
  obtain ⟨_, htable⟩ := verify_eq_ok_iff.mp h
  have hnames := congrArg NameMap.names htable
  rwa [NameMap.names_map, NameMap.names_map, eq_comm] at hnames

/-- In the table, each name has the link of its target. -/
theorem get?_of_verify {table : LinkTable} (h : m.verify = .ok table) {name : String}
    {target : Route} (htarget : m.links.get? name = some target) :
    ∃ l, m.api.link target = .ok l ∧ table.get? name = some l := by
  obtain ⟨_, htable⟩ := verify_eq_ok_iff.mp h
  have hname : (m.links.map m.api.link).get? name = (table.map .ok).get? name := by rw [htable]
  rw [NameMap.get?_map, NameMap.get?_map, htarget] at hname
  obtain ⟨l, hl, hok⟩ := Option.map_eq_some_iff.mp hname.symm
  exact ⟨l, hok.symm, hl⟩

/-! ## APIs that are not well formed -/

theorem getApi_of_invalid {e : RouteError} (h : m.api.check = .error e) :
    m.getApi = .error (.invalidApi e) := by
  rw [getApi, Api.ofRoute_eq_error_iff.mpr h]
  rfl

theorem check_of_invalid {e : RouteError} (h : m.api.check = .error e) :
    m.check = .error (.invalidApi e) := by
  rw [check, getApi_of_invalid h]
  rfl

theorem checkFailFast_of_invalid {e : RouteError} (h : m.api.check = .error e) :
    m.checkFailFast = .error (.invalidApi e) := by
  rw [checkFailFast, getApi_of_invalid h]
  rfl

/-- An API that is not well formed is refused before any target is looked at. -/
theorem verify_of_invalid {e : RouteError} (h : m.api.check = .error e) :
    m.verify = .error (.invalidApi e) := by
  rw [verify, check_of_invalid h]
  rfl

/-! ## Agreement -/

/-- If the API is well formed, the report has one outcome for each target, in the order of
the bytes of the names.  There is a table exactly if all outcomes are links, and it holds
them.  Otherwise the failures of the report are listed, which are the targets that have no
link.  If the API is not well formed nothing is checked, and this does not happen to a
manifest that was read. -/
theorem outcomes_agree (m : Manifest) :
    (m.api.WellFormed → ∃ r, m.check = .ok r ∧
      r.outcomes.names = m.links.names ∧
      (r.outcomes.names.Pairwise fun s t => Text.utf8 s < Text.utf8 t) ∧
      (∀ name, r.outcomes.get? name = (m.links.get? name).map m.api.link) ∧
      ((∃ table, m.verify = .ok table) ↔ m.AllLink) ∧
      (∀ table, m.verify = .ok table → table.names = m.links.names ∧
        ∀ name target, m.links.get? name = some target →
          ∃ l, m.api.link target = .ok l ∧ table.get? name = some l) ∧
      (¬ m.AllLink → m.verify = .error (.rejected m.links.size r.failures)) ∧
      (∀ name e, (name, e) ∈ r.failures ↔
        ∃ target, m.links.get? name = some target ∧ m.api.link target = .error e) ∧
      (r.failures.map Prod.fst).Pairwise fun s t => Text.utf8 s < Text.utf8 t) ∧
    (∀ e, m.api.check = .error e →
      m.check = .error (.invalidApi e) ∧ m.checkFailFast = .error (.invalidApi e) ∧
        m.verify = .error (.invalidApi e)) ∧
    ∀ s, ofText s = .ok m →
      (∃ r, m.check = .ok r) ∧ (∃ r, m.checkFailFast = .ok r) ∧
        ((∃ table, m.verify = .ok table) ∨
          ∃ total failures, m.verify = .error (.rejected total failures)) := by
  refine ⟨fun h => ?_, fun e h => ?_, fun s h => ?_⟩
  · have hnames : m.report.outcomes.names = m.links.names := NameMap.names_map ..
    exact ⟨m.report, check_of_wellFormed h, hnames, NameMap.names_bytes_ascending _,
      m.get?_outcomes, exists_verify_eq_ok_iff h,
      fun table htable => ⟨names_of_verify htable, fun _ _ => get?_of_verify htable⟩,
      verify_eq_rejected h, fun _ _ => mem_failures_iff, failures_bytes_ascending _⟩
  · exact ⟨check_of_invalid h, checkFailFast_of_invalid h, verify_of_invalid h⟩
  · obtain ⟨_, hvalid⟩ := ofText_eq_ok_iff.mp h
    have hapi := (validate_eq_ok_iff.mp hvalid).1
    refine ⟨⟨_, check_of_wellFormed hapi⟩, exists_checkFailFast_eq_ok hapi, ?_⟩
    by_cases hlinks : m.AllLink
    · exact .inl ((exists_verify_eq_ok_iff hapi).mpr hlinks)
    · exact .inr ⟨_, _, verify_eq_rejected hapi hlinks⟩

/-- A manifest with a link and a target that is not offered. -/
def halfOffered : Manifest where
  api := .path ["a"] .delete
  links := (NameMap.empty.insert "ä" (.path ["a"] .delete)).insert "z" (.path ["b"] .delete)

/-- The manifest is checked as it stands and as it is read, and with an API that answers
nothing it is not checked at all. -/
theorem outcomes_agree_halfOffered :
    halfOffered.links.names = ["z", "ä"] ∧
      (∃ r, halfOffered.check = .ok r ∧ r.outcomes.get? "ä" = some (.ok ⟨"/a"⟩) ∧
        halfOffered.verify = .error (.rejected 2 r.failures) ∧
        ("z", .notContained (.path ["b"] .delete)) ∈ r.failures) ∧
      ofText halfOffered.toText = .ok halfOffered ∧ (∃ r, halfOffered.checkFailFast = .ok r) ∧
      { halfOffered with api := .verb { method := .get } }.verify =
        .error (.invalidApi (.missingResponse .get)) := by
  have hread : ofText halfOffered.toText = .ok halfOffered := by
    rw [ofText_eq_ok_iff, readUnchecked_of_spaced halfOffered.spaced_toText]
    exact ⟨rfl, rfl⟩
  obtain ⟨hvalid, _, htext⟩ := outcomes_agree halfOffered
  obtain ⟨r, hcheck, _, _, houtcome, _, _, hrejected, hfailures, _⟩ := hvalid rfl
  have hz : halfOffered.links.get? "z" = some (.path ["b"] .delete) := rfl
  refine ⟨rfl, ⟨r, hcheck, houtcome "ä", hrejected fun h => ?_, ?_⟩, hread,
    (htext _ hread).2.1, ((outcomes_agree _).2.1 _ rfl).2.2⟩
  · obtain ⟨l, hl⟩ := h "z" _ hz
    cases hl
  · exact (hfailures _ _).mpr ⟨_, hz, rfl⟩

end Manifest

end VerifiedLinks
