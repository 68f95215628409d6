import VerifiedLinks.Proofs.Api.Endpoints
import VerifiedLinks.Proofs.Report.Alignment
import VerifiedLinks.Proofs.Route.Preorder

/-!
# What listings tell

An API contains each of its endpoints, although each is looked for in the whole tree, where
other alternatives come first (`contains_of_mem_endpoints`).  So an endpoint has a link exactly
if it is made of literal segments and a verb, and its path is the path of that link
(`link_eq_ok_iff_of_mem_endpoints`).

A listing has a row for each endpoint.  The row tells whether there is a link, and gives the
method and the path (`RowTells`).  What it tells is read off the columns of the row, whatever
stands in the cells (`rowTells_listingRow`).  The columns are those in which all rows line up:
blanks stand between them, and the endpoint goes to the end of the row (`RowAligned`).  So
what a row tells is all that stands in it.

This holds of every listing that is laid out.  But no path is wider than
`Text.maxColumnWidth`, and with an endpoint that needs a wider one nothing is shown of any
endpoint (`listing_longSegment`).  The main statement is `listing_tells_links`.
-/

namespace VerifiedLinks

/-! ## Endpoints as targets -/

namespace Route

variable {api e : Route}

theorem contains_of_mem_endpoints (he : e ∈ api.endpoints) : api.contains e = true := by
  have hself : Offers e e := .refl (altFree_of_mem_endpoints he)
  exact Offers.contains (offers_iff_exists_endpoint.mpr ⟨e, he, hself⟩)

/-- An endpoint has a link exactly if nothing but literals stands in front of its verb. -/
theorem link_eq_ok_iff_of_mem_endpoints (he : e ∈ api.endpoints) {l : Link} :
    api.link e = .ok l ↔ e.isLink = true ∧ l = ⟨e.literalPath⟩ := by
  rw [link_eq_ok_iff, isLink, Option.isNone_iff_eq_none]
  exact and_iff_right (contains_of_mem_endpoints he)

/-- The pattern of an endpoint with a link is the path of the link. -/
theorem pathPattern_eq_of_link (he : e ∈ api.endpoints) {l : Link} (h : api.link e = .ok l) :
    e.pathPattern = l.path := by
  obtain ⟨_, ht, rfl⟩ := link_eq_ok_iff.mp h
  have hfree : e.AltFree := altFree_of_mem_endpoints he
  exact (Offers.refl hfree).pathPattern_eq hfree ht

theorem exists_link_iff_of_mem_endpoints (he : e ∈ api.endpoints) :
    (∃ l, api.link e = .ok l) ↔ e.isLink = true := by
  simp only [link_eq_ok_iff_of_mem_endpoints he, exists_and_left, exists_eq, and_true]

/-- The test that is made for the mark is right. -/
theorem isOk_link_of_mem_endpoints (he : e ∈ api.endpoints) : (api.link e).isOk = e.isLink := by
  rw [Bool.eq_iff_iff, ← exists_link_iff_of_mem_endpoints he]
  cases api.link e with
  | ok l => simp [Except.isOk, Except.toBool]
  | error e => simp [Except.isOk, Except.toBool]

theorem method?_eq (r : Route) : r.method? = r.verb?.map Verb.method := by
  induction r with
  | alt left right => rfl
  | step s rest ih => exact ih
  | verb v => rfl

theorem exists_verb_of_mem_endpoints (he : e ∈ api.endpoints) : ∃ v, e.verb? = some v := by
  have hfree : e.AltFree := altFree_of_mem_endpoints he
  obtain ⟨v, _, hv, _⟩ := (Offers.refl hfree).exists_verb hfree
  exact ⟨v, hv⟩

end Route

/-! ## Rows -/

namespace Api

/-- What a row tells about an endpoint, with paths in a column of this width.  The mark, the
method, the path and the endpoint stand in their columns, and nothing else stands in the row. -/
structure RowTells (api : Api) (pathWidth : Nat) (e : Route) (row : String) : Prop extends
    RowAligned pathWidth e row where
  /-- The row is marked exactly if the endpoint has a link. -/
  tells_link : Text.cell 2 4 row = if (api.link e).isOk then "link" else "    "
  /-- The method is that of the verb. -/
  tells_method : ∃ v, e.verb? = some v ∧ Text.cell 8 6 row = Text.pad 6 v.method.name
  /-- The path is that of the link, and the empty path is shown as a slash. -/
  tells_path : ∀ l, api.link e = .ok l →
    Text.cell 16 pathWidth row = Text.pad pathWidth (if l.path = "" then "/" else l.path)

/-- The row of an endpoint tells of it what the API says. -/
theorem rowTells_listingRow {api : Api} {pathWidth : Nat} {e : Route} (he : e ∈ api.endpoints)
    (hwidth : (shownPath e.pathPattern).length ≤ pathWidth) :
    api.RowTells pathWidth e (e.listingRow pathWidth) := by
  have haligned := rowAligned_listingRow hwidth
  refine ⟨haligned, ?_, ?_, fun l hl => ?_⟩
  · have hlink := Route.isOk_link_of_mem_endpoints he
    rw [haligned.mark, Route.linkMark, ← hlink]
    rfl
  · obtain ⟨v, hv⟩ := Route.exists_verb_of_mem_endpoints he
    refine ⟨v, hv, ?_⟩
    rw [haligned.method, Route.shownMethod, Route.method?_eq, hv]
    rfl
  · rw [haligned.path, Route.pathPattern_eq_of_link he hl]
    rfl

/-! ## Listings -/

theorem linkableEndpoints_eq (api : Api) :
    api.linkableEndpoints = api.endpoints.filter fun e => (api.link e).isOk :=
  List.filter_congr fun _ he => (Route.isOk_link_of_mem_endpoints he).symm

/-- Each row tells what it should. -/
def ShowsEndpoints (api : Api) (text : String) : Prop :=
  api.HasRows api.RowTells text

/-- A listing that is laid out shows all endpoints. -/
theorem showsEndpoints_layout (api : Api) :
    api.ShowsEndpoints (api.layout (Text.columnWidth api.shownPaths)) :=
  hasRows_layout fun _ he _ hwidth => rowTells_listingRow he hwidth

/-- Each endpoint is contained, and it has a link exactly if it is made of literal segments and
a verb.  The endpoints that are listed as linkable are those that have a link.  A listing has a
row for each endpoint, which tells whether there is a link and where it leads, unless some path
is too wide for a column. -/
theorem listing_tells_links (api : Api) :
    (∀ e ∈ api.endpoints, api.contains e = true ∧
      ∀ l, api.link e = .ok l ↔ e.isLink = true ∧ l = ⟨e.literalPath⟩) ∧
    (api.linkableEndpoints = api.endpoints.filter fun e => (api.link e).isOk) ∧
    (api.Fits → ∃ text, api.listing = .ok text ∧ api.ShowsEndpoints text) ∧
    (¬ api.Fits → ∀ text, api.listing ≠ .ok text) := by
  refine ⟨fun e he => ?_, api.linkableEndpoints_eq, fun hfits => ?_, fun hfits text => ?_⟩
  · exact ⟨Route.contains_of_mem_endpoints he, fun l => Route.link_eq_ok_iff_of_mem_endpoints he⟩
  · exact ⟨_, listing_of_fits hfits, api.showsEndpoints_layout⟩
  · exact fun h => hfits (listing_eq_ok_iff.mp h).1

/-- One endpoint is a verb and nothing else, and the other one has modifiers. -/
theorem listing_tells_links_profiles :
    profiles.contains (.verb .delete) = true ∧ profiles.link (.verb .delete) = .ok ⟨""⟩ ∧
      profiles.linkableEndpoints = [.verb .delete] ∧
      ∃ text, profiles.listing = .ok text ∧ profiles.ShowsEndpoints text := by
  obtain ⟨hendpoints, _, hfits, _⟩ := listing_tells_links profiles
  have hverb : Route.verb .delete ∈ profiles.endpoints := List.mem_cons_self
  have hcells : Text.Fit profiles.shownPaths := by decide
  obtain ⟨hcontains, hlink⟩ := hendpoints _ hverb
  exact ⟨hcontains, (hlink _).mpr ⟨rfl, rfl⟩, rfl, hfits hcells⟩

example : profiles.listing = .ok
    ("API  2 endpoints\n" ++
     "────────────────\n" ++
     "  link  DELETE  /          Delete\n" ++
     "        GET     /users/me  \"users\" :> QueryFlag \"new\" :> QueryFlag \"full\" :> \"me\" " ++
     ":> Get '[XML, JSON] User\n") := by
  decide +kernel

/-! ## A path that is too wide -/

/-- An API with one endpoint, whose segment has this number of letters and one more. -/
def longSegment (n : Nat) : Api where
  root := .path [String.ofList (List.replicate (n + 1) 'a')] .delete
  wellFormed := by
    refine Route.wellFormed_path_iff.mpr ⟨fun s hs => ?_, rfl⟩
    rw [List.mem_singleton.mp hs, String.toList_ofList]
    refine ⟨fun hempty => ?_, fun hslash => ?_⟩
    · rw [String.ofList_eq_empty_iff] at hempty
      cases hempty
    · exact absurd (List.eq_of_mem_replicate hslash) (by decide)

theorem shownPaths_longSegment (n : Nat) :
    (longSegment n).shownPaths = ["/" ++ String.ofList (List.replicate (n + 1) 'a')] := by
  have hpattern : (longSegment n).root.pathPattern =
      "/" ++ String.ofList (List.replicate (n + 1) 'a') := String.append_empty
  show [shownPath (longSegment n).root.pathPattern] = _
  rw [hpattern, shownPath, if_neg (by simp)]

/-- This API is listed exactly if the path of its endpoint fits, with the slash in front. -/
theorem fits_longSegment_iff (n : Nat) :
    (longSegment n).Fits ↔ n + 2 ≤ Text.maxColumnWidth := by
  have hslash : "/".utf8ByteSize = 1 := rfl
  rw [Fits, shownPaths_longSegment, Text.Fit, List.forall_mem_singleton,
    String.utf8ByteSize_append, Text.utf8ByteSize_replicate, hslash]
  omega

/-- With a segment of 65535 letters, behind a slash, the one endpoint of the API has a link, and
no listing shows it. -/
theorem listing_longSegment :
    (longSegment 65534).endpoints = [(longSegment 65534).root] ∧
      (∃ l, (longSegment 65534).link (longSegment 65534).root = .ok l) ∧
      ∀ text, (longSegment 65534).listing ≠ .ok text := by
  have hendpoints (n : Nat) : (longSegment n).endpoints = [(longSegment n).root] := rfl
  have hmem : (longSegment 65534).root ∈ (longSegment 65534).endpoints := by
    rw [hendpoints]
    exact List.mem_singleton_self _
  have hfits : ¬ (longSegment 65534).Fits := by
    rw [fits_longSegment_iff]
    decide
  exact ⟨hendpoints _, (Route.exists_link_iff_of_mem_endpoints hmem).mpr rfl,
    fun text h => hfits (listing_eq_ok_iff.mp h).1⟩

end Api

end VerifiedLinks
