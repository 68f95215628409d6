import VerifiedLinks.Manifest.Basic
import VerifiedLinks.Route.Reader
import VerifiedLinks.Route.Writer

/-!
# Manifests as text

A manifest is written as an object with the members `api` and `links`.  When it is
read, `links` may be missing, other members are skipped, and an array of the one or
two values may stand for the object.  A later target of the same name replaces an
earlier one.

`Manifest.ofText` also asks that all trees are well formed.
-/

namespace VerifiedLinks

open Json (Value Draft ReadError mismatch orFault)

/-! ## Writing -/

/-- The value that a manifest is written as. -/
def Manifest.toValue (m : Manifest) : Value :=
  .object [
    ("api", m.api.toValue),
    ("links", .object (m.links.entries.map fun e => (e.1, e.2.toValue)))]

/-- The text of a manifest. -/
def Manifest.toText (m : Manifest) : String :=
  m.toValue.write

/-! ## Reading -/

namespace Manifest

/-- The targets among the members of an object, on top of those before them. -/
def readTargets (room : Nat) (targets : NameMap Route) :
    List (Option String × Draft) → Except ReadError (NameMap Route)
  | [] => .ok targets
  | (name, d) :: ms => do
    let name ← orFault (Draft.required name)
    let target ← Route.ofDraft room d
    readTargets room (targets.insert name target) ms

/-- The targets of a manifest. -/
def readLinks (room : Nat) : Draft → Except ReadError (NameMap Route)
  | .object ms stop =>
    match room with
    | 0 => .error (.fault .malformed)
    | room + 1 => do
      let targets ← readTargets room .empty ms
      orFault (Draft.stopped stop)
      .ok targets
  | d => d.refuse "a map"

/-- The API and the targets among the members of an object. -/
def readMembers (room : Nat) (api : Option Route) (links : Option (NameMap Route)) :
    List (Option String × Draft) → Except ReadError (Option Route × Option (NameMap Route))
  | [] => .ok (api, links)
  | (name, d) :: ms => do
    let name ← orFault (Draft.required name)
    if name = "api" then
      match api with
      | some _ => mismatch (.duplicateField name)
      | none => readMembers room (some (← Route.ofDraft room d)) links ms
    else if name = "links" then
      match links with
      | some _ => mismatch (.duplicateField name)
      | none => readMembers room api (some (← readLinks room d)) ms
    else
      orFault d.skip
      readMembers room api links ms

/-- The API and the targets among the items of an array.  A third item is already
more than an array of two can have. -/
def readItems (room : Nat) (stop : Option Json.Break) : List Draft → Except ReadError Manifest
  | [] => do
    orFault (Draft.stopped stop)
    mismatch (.invalidLength 0 "struct LinkManifest with 2 elements")
  | [api] => do
    let api ← Route.ofDraft room api
    orFault (Draft.stopped stop)
    .ok { api }
  | [api, links] => do
    let api ← Route.ofDraft room api
    let links ← readLinks room links
    orFault (Draft.stopped stop)
    .ok { api, links }
  | api :: links :: _ => do
    let _ ← Route.ofDraft room api
    let _ ← readLinks room links
    .error (.fault .malformed)

/-- The manifest of a draft, if no more than `room + 1` arrays and objects are open
at once. -/
def ofDraft (room : Nat) : Draft → Except ReadError Manifest
  | .object ms stop => do
    let (api, links) ← readMembers room none none ms
    orFault (Draft.stopped stop)
    match api with
    | some api => .ok { api, links := links.getD .empty }
    | none => mismatch (.missingField "api")
  | .array ds stop => readItems room stop ds
  | d => d.refuse "struct LinkManifest"

/-- The manifest that a text writes, whether its trees are well formed or not. -/
def readUnchecked (s : String) : Except ReadError Manifest :=
  Json.readText (ofDraft (Json.maxDepth - 1)) s

/-- The manifest that a text writes, if all its trees are well formed. -/
def ofText (s : String) : Except ManifestError Manifest := do
  let m ← (readUnchecked s).mapError .unreadable
  m.validate
  .ok m

end Manifest

end VerifiedLinks
