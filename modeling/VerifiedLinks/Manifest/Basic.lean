import VerifiedLinks.Api
import VerifiedLinks.Json.ReadError
import VerifiedLinks.NameMap

/-!
# Manifests

A *manifest* is the description of an API together with the targets that somebody
wants to link to, each under a name.  Checking a manifest makes a *report*: for
each name, in order, the link or the reason why there is none.  A report without
a failure gives a *table* of links.

A fail-fast check stops behind the first failure, so its report is the beginning
of the full one.
-/

namespace VerifiedLinks

/-- The description of an API and the targets to be linked to. -/
structure Manifest where
  /-- The description of the API. -/
  api : Route
  /-- The targets. -/
  links : NameMap Route := NameMap.empty

/-- The links of a manifest, all of them verified. -/
abbrev LinkTable := NameMap Link

/-- What became of each target of a manifest. -/
structure Report where
  /-- A link or a reason why there is none. -/
  outcomes : NameMap (Except LinkError Link)

/-- Why there is no table of links. -/
inductive ManifestError where
  /-- The text is no manifest. -/
  | unreadable (e : Json.ReadError)
  /-- The description of the API is not well formed. -/
  | invalidApi (e : RouteError)
  /-- A target is not well formed. -/
  | invalidLink (name : String) (e : RouteError)
  /-- Some of the `total` targets have no link. -/
  | rejected (total : Nat) (failures : List (String × LinkError))

/-- What the user is told. -/
def ManifestError.message : ManifestError → String
  | unreadable e => "failed to parse manifest: " ++ e.message
  | invalidApi e => "invalid API description: " ++ e.message
  | invalidLink name e => "invalid route for link " ++ Text.quoted name ++ ": " ++ e.message
  | rejected total failures =>
    toString failures.length ++ " of " ++ toString total ++ " links rejected: " ++
      ", ".intercalate (failures.map Prod.fst)

/-! ## Reports -/

/-- The reason of a failure. -/
def failure? {ε α : Type} : Except ε α → Option ε
  | .error e => some e
  | .ok _ => none

namespace Report

/-- The number of targets in the report. -/
def size (r : Report) : Nat := r.outcomes.size

/-- The failures, in the order of their names. -/
def failures (r : Report) : List (String × LinkError) :=
  (r.outcomes.filterMap failure?).entries

/-- Every target in the report has its link. -/
def isOk (r : Report) : Bool :=
  r.outcomes.entries.all fun e => (failure? e.2).isNone

/-- Outcomes taken apart into links and failures, on top of those before them. -/
def partition (links : LinkTable) (failures : List (String × LinkError)) :
    List (String × Except LinkError Link) → LinkTable × List (String × LinkError)
  | [] => (links, failures)
  | (name, .ok link) :: outcomes => partition (links.insert name link) failures outcomes
  | (name, .error e) :: outcomes => partition links (failures ++ [(name, e)]) outcomes

/-- The links, unless some target has none. -/
def table (r : Report) : Except ManifestError LinkTable :=
  match partition .empty [] r.outcomes.entries with
  | (links, []) => .ok links
  | (_, failures) => .error (.rejected r.size failures)

end Report

/-! ## Checking -/

namespace Manifest

/-- The API, if its description is well formed. -/
def getApi (m : Manifest) : Except ManifestError Api :=
  (Api.ofRoute m.api).mapError .invalidApi

/-- The first target that is not well formed, in the order of the names. -/
def checkTargets : List (String × Route) → Except ManifestError Unit
  | [] => .ok ()
  | (name, target) :: targets => do
    target.check.mapError (.invalidLink name)
    checkTargets targets

/-- All trees of the manifest are well formed, the API first. -/
def validate (m : Manifest) : Except ManifestError Unit := do
  m.api.check.mapError .invalidApi
  checkTargets m.links.entries

/-- What becomes of each target. -/
def check (m : Manifest) : Except ManifestError Report := do
  let api ← m.getApi
  .ok ⟨m.links.map api.link⟩

/-- The outcomes of targets, in order, up to and with the first failure. -/
def outcomesThroughFailure (api : Api) :
    List (String × Route) → List (String × Except LinkError Link)
  | [] => []
  | (name, target) :: targets =>
    match api.link target with
    | .ok link => (name, .ok link) :: outcomesThroughFailure api targets
    | .error e => [(name, .error e)]

/-- A check that stops early leaves out targets, but keeps their order. -/
theorem outcomesThroughFailure_names_sublist (api : Api) (targets : List (String × Route)) :
    ((outcomesThroughFailure api targets).map Prod.fst).Sublist (targets.map Prod.fst) := by
  induction targets with
  | nil => exact .slnil
  | cons e targets ih =>
      obtain ⟨name, target⟩ := e
      rw [outcomesThroughFailure]
      cases api.link target with
      | ok link => exact ih.cons_cons name
      | error e => exact (List.nil_sublist _).cons_cons name

/-- What becomes of each target up to the first failure.  No target behind it is looked
at. -/
def checkFailFast (m : Manifest) : Except ManifestError Report := do
  let api ← m.getApi
  .ok ⟨outcomesThroughFailure api m.links.entries, by
    have hnames := List.pairwise_map.mpr m.links.ascending
    exact List.pairwise_map.mp (hnames.sublist (outcomesThroughFailure_names_sublist api _))⟩

/-- The links of all targets. -/
def verify (m : Manifest) : Except ManifestError LinkTable := do
  (← m.check).table

end Manifest

end VerifiedLinks
