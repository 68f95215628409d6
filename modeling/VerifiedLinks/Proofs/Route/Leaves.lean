import VerifiedLinks.Proofs.Route.Chain

/-!
# Leaves

A *leaf* of a route is a way from the root down to a verb (`Route.Leaf`).  It turns left or
right at each alternative, so equal verbs in two places are two leaves.  The leaf passes steps
on its way, and these with the verb at its end are a chain, its *endpoint*.

Of two leaves one stands left of the other: it turns left where they part (`Leaf.LeftOf`).  The
list of endpoints is what the leaves amount to from left to right (`endpoints_eq_map_leaves`).
All leaves are in it (`mem_leaves`), and they are in order (`leaves_ascending`), so none is in
it twice.
-/

namespace VerifiedLinks.Route

/-! ## Ways to verbs -/

/-- A way from the root of a route to a verb. -/
inductive Leaf : Route → Type
  | left {l r : Route} : Leaf l → Leaf (alt l r)
  | right {l r : Route} : Leaf r → Leaf (alt l r)
  | step {s : Step} {rest : Route} : Leaf rest → Leaf (step s rest)
  | verb (v : Verb) : Leaf (verb v)

namespace Leaf

/-- The steps on the way, from the root down. -/
def steps : {r : Route} → Leaf r → List Step
  | _, left a => a.steps
  | _, right a => a.steps
  | .step s _, step a => s :: a.steps
  | _, verb _ => []

/-- The verb at the end of the way. -/
def verbAt : {r : Route} → Leaf r → Verb
  | _, left a => a.verbAt
  | _, right a => a.verbAt
  | _, step a => a.verbAt
  | _, verb v => v

/-- The steps on the way in front of the verb at its end. -/
def endpoint {r : Route} (a : Leaf r) : Route :=
  chain a.steps a.verbAt

/-- The leaf `a` stands left of the leaf `b`. -/
inductive LeftOf : {r : Route} → (a b : Leaf r) → Prop
  | apart {l r : Route} (a : Leaf l) (b : Leaf r) : LeftOf (left a) (right b)
  | left {l r : Route} {a b : Leaf l} : LeftOf a b → LeftOf (left (r := r) a) (left b)
  | right {l r : Route} {a b : Leaf r} : LeftOf a b → LeftOf (right (l := l) a) (right b)
  | step {s : Step} {rest : Route} {a b : Leaf rest} :
      LeftOf a b → LeftOf (step (s := s) a) (step b)

/-- No leaf stands to the left of itself. -/
theorem LeftOf.irrefl {r : Route} (a : Leaf r) : ¬ LeftOf a a := by
  intro h
  induction a with
  | left a ih =>
      cases h with
      | left h => exact ih h
  | right a ih =>
      cases h with
      | right h => exact ih h
  | step a ih =>
      cases h with
      | step h => exact ih h
  | verb v => cases h

end Leaf

/-! ## All leaves -/

/-- The leaves of a route, from left to right. -/
def leaves : (r : Route) → List (Leaf r)
  | alt l r => l.leaves.map .left ++ r.leaves.map .right
  | step _ rest => rest.leaves.map .step
  | verb v => [.verb v]

/-- Every leaf is listed. -/
theorem mem_leaves {r : Route} (a : Leaf r) : a ∈ r.leaves := by
  induction a with
  | left a ih => exact List.mem_append_left _ (List.mem_map_of_mem ih)
  | right a ih => exact List.mem_append_right _ (List.mem_map_of_mem ih)
  | step a ih => exact List.mem_map_of_mem ih
  | verb v => exact List.mem_singleton_self _

/-- The leaves are listed from left to right. -/
theorem leaves_ascending (r : Route) : r.leaves.Pairwise Leaf.LeftOf := by
  induction r with
  | alt l r ihl ihr =>
      rw [leaves, List.pairwise_append, List.pairwise_map, List.pairwise_map]
      refine ⟨ihl.imp .left, ihr.imp .right, fun a ha b hb => ?_⟩
      obtain ⟨a, _, rfl⟩ := List.mem_map.mp ha
      obtain ⟨b, _, rfl⟩ := List.mem_map.mp hb
      exact .apart a b
  | step s rest ih =>
      rw [leaves, List.pairwise_map]
      exact ih.imp .step
  | verb v => exact List.pairwise_singleton _ _

/-- No leaf is listed twice. -/
theorem leaves_nodup (r : Route) : r.leaves.Nodup := by
  refine r.leaves_ascending.imp fun {a b} hab => ?_
  rintro rfl
  exact Leaf.LeftOf.irrefl _ hab

/-- The endpoints are those of the leaves, in the same order. -/
theorem endpoints_eq_map_leaves (r : Route) : r.endpoints = r.leaves.map Leaf.endpoint := by
  induction r with
  | alt l r ihl ihr =>
      rw [endpoints_alt, ihl, ihr, leaves, List.map_append, List.map_map, List.map_map]
      rfl
  | step s rest ih =>
      rw [endpoints_step, ih, leaves, List.map_map, List.map_map]
      rfl
  | verb v => rfl

/-! ## Routes without alternatives -/

/-- A chain has one leaf, and it is its own endpoint. -/
theorem endpoints_chain (ss : List Step) (v : Verb) : (chain ss v).endpoints = [chain ss v] := by
  induction ss with
  | nil => rfl
  | cons s ss ih => rw [chain_cons, endpoints_step, ih, List.map_singleton]

/-- A route without alternatives is its only endpoint. -/
theorem endpoints_of_altFree {r : Route} (h : r.AltFree) : r.endpoints = [r] := by
  obtain ⟨ss, v, rfl⟩ := altFree_iff_exists_chain.mp h
  exact endpoints_chain ss v

end VerifiedLinks.Route
