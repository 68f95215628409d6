import Mathlib.Logic.Relation
import VerifiedLinks.Proofs.Link.Paths
import VerifiedLinks.Proofs.Manifest.Verify

/-!
# Growing APIs

An API *grows* by edits that add to it.  An edit puts an alternative beside a route,
a modifier above a route, or content types into the list of a verb, and it may be
made at any place of the tree (`Route.Edit`).  `Route.Grows` is any number of edits.

Growth takes nothing away.  For one edit this is an induction over the place where it
is made (`Offers.edit`).  Only the modifier could do harm, since a target that begins
with it is now met by the new node and not by the old one.  By the rules of
`Route.Offers` the new node may be passed over instead.

The main statement is `Grows.keeps_links`: what was offered is offered still, links
stay the same, and so do the tables of verified manifests.
-/

namespace VerifiedLinks

namespace Route

/-! ## Edits -/

/-- The API description `a'` comes from `a` by one edit that adds to it. -/
inductive Edit : (a a' : Route) → Prop
  | altRight (a added : Route) : Edit a (alt a added)
  | altLeft (a added : Route) : Edit a (alt added a)
  | modifier (m : Modifier) (a : Route) : Edit a (step (.modifier m) a)
  | contentTypes {v : Verb} {cts : List ContentType} :
      v.contentTypes.Sublist cts → Edit (verb v) (verb { v with contentTypes := cts })
  | inLeft {a a' : Route} (right : Route) : Edit a a' → Edit (alt a right) (alt a' right)
  | inRight {a a' : Route} (left : Route) : Edit a a' → Edit (alt left a) (alt left a')
  | under {a a' : Route} (s : Step) : Edit a a' → Edit (step s a) (step s a')

/-- The API description `a'` comes from `a` by edits that add to it. -/
def Grows : (a a' : Route) → Prop := Relation.ReflTransGen Edit

/-! ## What is offered -/

/-- One edit takes nothing away that was offered. -/
theorem Offers.edit {a a' t : Route} (h : Offers a t) (he : Edit a a') : Offers a' t := by
  induction he generalizing t with
  | altRight => exact .left h
  | altLeft => exact .right h
  | modifier => exact .pass h
  | contentTypes hcts =>
      cases h with
      | verb hv =>
          exact .verb ⟨hv.method, hv.response, List.Subset.trans hv.contentTypes hcts.subset⟩
  | inLeft _ _ ih =>
      cases h with
      | left h => exact .left (ih h)
      | right h => exact .right h
  | inRight _ _ ih =>
      cases h with
      | left h => exact .left h
      | right h => exact .right (ih h)
  | under _ _ ih =>
      cases h with
      | step hs h => exact .step hs (ih h)
      | pass h => exact .pass (ih h)

theorem Offers.grows {a a' t : Route} (h : Offers a t) (hg : Grows a a') : Offers a' t := by
  induction hg with
  | refl => exact h
  | tail _ he ih => exact ih.edit he

section

variable {a a' : Route}

/-- What was contained is contained after the edits. -/
theorem Grows.contains (hg : Grows a a') {t : Route} (h : a.contains t = true) :
    a'.contains t = true :=
  ((Offers.of_contains h).grows hg).contains

/-- A target that had a link has the same one after the edits. -/
theorem Grows.link (hg : Grows a a') {t : Route} {l : Link} (h : a.link t = .ok l) :
    a'.link t = .ok l := by
  obtain ⟨hc, ht, hl⟩ := link_eq_ok_iff.mp h
  exact link_eq_ok_iff.mpr ⟨hg.contains hc, ht, hl⟩

end

end Route

/-! ## Tables -/

/-- A verified manifest stays verified while its API grows, and its table stays the same. -/
theorem Manifest.verify_of_grows {m : Manifest} {t : LinkTable} {a' : Route}
    (hg : m.api.Grows a') (ha' : a'.WellFormed) (h : m.verify = .ok t) :
    { m with api := a' }.verify = .ok t := by
  obtain ⟨_, hlinks⟩ := verify_eq_ok_iff.mp h
  refine verify_eq_ok_iff.mpr ⟨ha', ?_⟩
  have hsame : m.links.map a'.link = m.links.map m.api.link := by
    refine NameMap.map_congr fun e he => ?_
    obtain ⟨l, hl⟩ := NameMap.exists_of_map_eq_map hlinks he
    rw [hl]
    exact hg.link hl
  exact hsame.trans hlinks

/-- The growth of an API breaks no link: not for a target, and not in the table of a
manifest, as long as the description stays well formed. -/
theorem Route.Grows.keeps_links {a a' : Route} (hg : a.Grows a') :
    (∀ t, a.contains t = true → a'.contains t = true) ∧
      (∀ t l, a.link t = .ok l → a'.link t = .ok l) ∧
      ∀ (m : Manifest) (table : LinkTable), m.api = a → m.verify = .ok table →
        a'.WellFormed → { m with api := a' }.verify = .ok table := by
  refine ⟨fun t h => hg.contains h, fun t l h => hg.link h, ?_⟩
  rintro m table rfl h ha'
  exact Manifest.verify_of_grows hg ha' h

/-! ## Greetings that grow -/

/-- Greetings in one more content type, with the flag given twice, and an end to them. -/
def Route.moreGreetings : Route :=
  step (.segment "hello") (alt
    (step (.modifier (.flag .query "loud")) (step (.modifier (.flag .query "loud"))
      (verb { method := .get, contentTypes := [.json, .xml], response := some "Text" })))
    (verb .delete))

/-- A modifier and an endpoint are added. -/
theorem Route.grows_moreGreetings : (greetings [.json]).Grows moreGreetings := by
  have htype : Edit (greetings [.json]) (greetings [.json, .xml]) :=
    .under _ (.under _ (.contentTypes (by decide)))
  exact ((Relation.ReflTransGen.single htype).tail (.under _ (.modifier _ _))).tail
    (.under _ (.altRight _ _))

/-- A manifest with one target. -/
def Manifest.greeting : Manifest where
  api := Route.greetings [.json]
  links := NameMap.empty.insert "greet" Route.greeting

/-- The target that begins with the flag stays, the link stays, and the table stays. -/
theorem Route.keeps_links_greetings :
    (greetings [.json]).contains (greetings [.json]) = true ∧
      moreGreetings.contains (greetings [.json]) = true ∧
      (greetings [.json]).link greeting = .ok ⟨"/hello"⟩ ∧
      moreGreetings.link greeting = .ok ⟨"/hello"⟩ ∧
      Manifest.greeting.verify = .ok (NameMap.empty.insert "greet" ⟨"/hello"⟩) ∧
      { Manifest.greeting with api := moreGreetings }.verify =
        .ok (NameMap.empty.insert "greet" ⟨"/hello"⟩) := by
  obtain ⟨hcontains, hlink, hverify⟩ := Grows.keeps_links grows_moreGreetings
  have hc : (greetings [.json]).contains (greetings [.json]) = true := by decide
  have hl : (greetings [.json]).link greeting = .ok ⟨"/hello"⟩ := rfl
  have hv : Manifest.greeting.verify = .ok (NameMap.empty.insert "greet" ⟨"/hello"⟩) := rfl
  have hw : moreGreetings.WellFormed := by decide
  exact ⟨hc, hcontains _ hc, hl, hlink _ _ hl, hv, hverify _ _ rfl hv hw⟩

end VerifiedLinks
