import VerifiedLinks.Proofs.Route.Chain
import VerifiedLinks.Route.Containment

/-!
# Offers

`Route.Offers` says by rules what an API offers.  There is one rule for each way
in which a node of the API can serve a target: an alternative serves through
either branch, a step serves by admitting the first step of the target, a modifier
also by being passed over, and a verb by admitting the verb of the target.

The rules overlap.  A modifier with which the target begins may be met or passed
over, whereas `Route.contains` passes over no modifier that can be met.  The search
loses nothing by that (`contains_iff_offers`), because a target that is offered is
also offered without the modifier with which it begins (`Offers.of_modifier`).

What an API offers is what one of its endpoints offers
(`offers_iff_exists_endpoint`), and it has no alternatives (`Offers.altFree`).
-/

namespace VerifiedLinks

/-! ## Steps and verbs -/

/-- The step `s` of an API serves the step `t` of a target: they are the same, or
`t` is a capture and `s` stands in the path as well. -/
inductive Step.Admits : (s t : Step) → Prop
  | same (s : Step) : Admits s s
  | segment (literal name type : String) : Admits (segment literal) (capture name type)
  | capture (name type name' type' : String) :
      Admits (capture name type) (capture name' type')

/-- The verb `v` of an API serves the verb `w` of a target: method and response are
the same, and all content types of `w` are among those of `v`. -/
structure Verb.Admits (v w : Verb) : Prop where
  method : w.method = v.method
  response : w.response = v.response
  contentTypes : w.contentTypes ⊆ v.contentTypes

namespace Step

/-- A literal admits itself and every capture. -/
theorem admits_segment_iff {literal : String} {t : Step} :
    (segment literal).Admits t ↔ t = segment literal ∨ ∃ name type, t = capture name type := by
  constructor
  · intro h
    cases h with
    | same => exact Or.inl rfl
    | segment _ name type => exact Or.inr ⟨name, type, rfl⟩
  · rintro (rfl | ⟨name, type, rfl⟩)
    · exact .same _
    · exact .segment ..

/-- A capture admits captures only, whatever they are called. -/
theorem admits_capture_iff {name type : String} {t : Step} :
    (capture name type).Admits t ↔ ∃ name' type', t = capture name' type' := by
  constructor
  · intro h
    cases h with
    | same => exact ⟨name, type, rfl⟩
    | capture _ _ name' type' => exact ⟨name', type', rfl⟩
  · rintro ⟨name', type', rfl⟩
    exact .capture ..

/-- A modifier admits itself only. -/
theorem admits_modifier_iff {m : Modifier} {t : Step} :
    (modifier m).Admits t ↔ t = modifier m := by
  constructor
  · intro h
    cases h with
    | same => rfl
  · rintro rfl
    exact .same _

/-- Only a literal admits a literal. -/
theorem Admits.eq_segment {s : Step} {literal : String} (h : s.Admits (.segment literal)) :
    s = .segment literal := by
  cases h with
  | same => rfl

/-- Only a modifier admits a modifier. -/
theorem Admits.eq_modifier {s : Step} {m : Modifier} (h : s.Admits (.modifier m)) :
    s = .modifier m := by
  cases h with
  | same => rfl

end Step

theorem Verb.Admits.refl (v : Verb) : v.Admits v := ⟨rfl, rfl, List.Subset.refl _⟩

namespace Route

/-! ## The search, node by node -/

/-- A literal has to be met by the target. -/
theorem contains_segment_iff {literal : String} {a t : Route} :
    (step (.segment literal) a).contains t = true ↔
      ∃ s t', t = step s t' ∧ (Step.segment literal).Admits s ∧ a.contains t' = true := by
  cases t with
  | alt left right => simp [contains]
  | verb w => simp [contains]
  | step s t =>
      simp only [step.injEq, and_assoc, exists_and_left, exists_eq_left', Step.admits_segment_iff]
      cases s with
      | segment literal' =>
          by_cases h : literal' = literal
          · simp [contains, h]
          · simp [contains, h]
      | capture name type => simp [contains]
      | modifier m => simp [contains]

theorem contains_capture_iff {name type : String} {a t : Route} :
    (step (.capture name type) a).contains t = true ↔
      ∃ s t', t = step s t' ∧ (Step.capture name type).Admits s ∧ a.contains t' = true := by
  cases t with
  | alt left right => simp [contains]
  | verb w => simp [contains]
  | step s t =>
      simp only [step.injEq, and_assoc, exists_and_left, exists_eq_left', Step.admits_capture_iff]
      cases s with
      | segment literal => simp [contains]
      | capture name' type' => simp [contains]
      | modifier m => simp [contains]

/-- A modifier is met by a target that begins with it, and it leaves any other
target to what is below. -/
theorem contains_modifier_iff {m : Modifier} {a t : Route} :
    (step (.modifier m) a).contains t = true ↔
      (∃ t', t = step (.modifier m) t' ∧ a.contains t' = true) ∨
      ((∀ t', t ≠ step (.modifier m) t') ∧ a.contains t = true) := by
  cases t with
  | alt left right => simp [contains]
  | verb w => simp [contains]
  | step s t =>
      cases s with
      | segment literal => simp [contains]
      | capture name type => simp [contains]
      | modifier n =>
          by_cases h : n = m
          · simp [contains, h]
          · simp [contains, h]

/-- At a verb the target ends in one that is admitted. -/
theorem contains_verb_iff {v : Verb} {t : Route} :
    (verb v).contains t = true ↔ ∃ w, t = verb w ∧ v.Admits w := by
  cases t with
  | alt left right => simp [contains]
  | step s t => simp [contains]
  | verb w =>
      simp only [verb.injEq, exists_eq_left']
      by_cases h : w.method = v.method ∧ w.response = v.response
      · rw [contains, if_pos h, isSubList_iff]
        exact ⟨fun hs => ⟨h.1, h.2, hs⟩, fun hv => hv.contentTypes⟩
      -- Verbs that disagree are not equal, so the last resort of the search is in vain.
      · rw [contains, if_neg h]
        have hne : w ≠ v := fun hwv => h (by simp [hwv])
        simp only [beq_iff_eq, verb.injEq, hne, false_iff]
        exact fun hv => h ⟨hv.method, hv.response⟩

/-! ## The rules -/

/-- The API offers the target. -/
inductive Offers : (api target : Route) → Prop
  | left {left right t : Route} : Offers left t → Offers (alt left right) t
  | right {left right t : Route} : Offers right t → Offers (alt left right) t
  | step {s s' : Step} {a t : Route} : s.Admits s' → Offers a t → Offers (step s a) (step s' t)
  | pass {m : Modifier} {a t : Route} : Offers a t → Offers (step (.modifier m) a) t
  | verb {v w : Verb} : v.Admits w → Offers (verb v) (verb w)

/-- A modifier at the root of a target can be left out. -/
theorem Offers.of_modifier {a t : Route} {m : Modifier}
    (h : Offers a (.step (.modifier m) t)) : Offers a t := by
  generalize ht : Route.step (.modifier m) t = t' at h
  induction h with
  | left _ ih => exact left (ih ht)
  | right _ ih => exact right (ih ht)
  | step hs h _ =>
      cases ht
      rw [hs.eq_modifier]
      exact pass h
  | pass _ ih => exact pass (ih ht)
  | verb => cases ht

/-! ## The rules and the search -/

/-- What is contained is offered. -/
theorem Offers.of_contains {api t : Route} (h : api.contains t = true) : Offers api t := by
  induction api generalizing t with
  | alt l r ihl ihr =>
      rw [contains_alt, Bool.or_eq_true] at h
      cases h with
      | inl h => exact left (ihl h)
      | inr h => exact right (ihr h)
  | step s a ih =>
      cases s with
      | segment literal =>
          obtain ⟨s', t', rfl, hs, ht⟩ := contains_segment_iff.mp h
          exact step hs (ih ht)
      | capture name type =>
          obtain ⟨s', t', rfl, hs, ht⟩ := contains_capture_iff.mp h
          exact step hs (ih ht)
      | modifier m =>
          rcases contains_modifier_iff.mp h with ⟨t', rfl, ht⟩ | ⟨_, ht⟩
          · exact step (.same _) (ih ht)
          · exact pass (ih ht)
  | verb v =>
      obtain ⟨w, rfl, hw⟩ := contains_verb_iff.mp h
      exact verb hw

/-- What is offered is contained, whichever modifiers it passes over. -/
theorem Offers.contains {api t : Route} (h : Offers api t) : api.contains t = true := by
  induction api generalizing t with
  | alt l r ihl ihr =>
      rw [contains_alt, Bool.or_eq_true]
      cases h with
      | left h => exact Or.inl (ihl h)
      | right h => exact Or.inr (ihr h)
  | step s a ih =>
      cases h with
      | step hs h =>
          cases s with
          | segment literal => exact contains_segment_iff.mpr ⟨_, _, rfl, hs, ih h⟩
          | capture name type => exact contains_capture_iff.mpr ⟨_, _, rfl, hs, ih h⟩
          | modifier m =>
              rw [Step.admits_modifier_iff] at hs
              subst hs
              exact contains_modifier_iff.mpr (Or.inl ⟨_, rfl, ih h⟩)
      | @pass m _ _ h =>
          -- The rule passes over the modifier even where the search would meet it.
          by_cases ht : ∃ t', t = Route.step (.modifier m) t'
          · obtain ⟨t', rfl⟩ := ht
            exact contains_modifier_iff.mpr (Or.inl ⟨t', rfl, ih h.of_modifier⟩)
          · exact contains_modifier_iff.mpr (Or.inr ⟨not_exists.mp ht, ih h⟩)
  | verb v =>
      cases h with
      | verb hw => exact contains_verb_iff.mpr ⟨_, rfl, hw⟩

/-- The search finds all that the rules allow, and nothing else. -/
theorem contains_iff_offers {api t : Route} : api.contains t = true ↔ Offers api t :=
  ⟨Offers.of_contains, Offers.contains⟩

/-! ## Targets and endpoints -/

/-- No API offers an alternative. -/
theorem Offers.altFree {api t : Route} (h : Offers api t) : t.AltFree := by
  induction h with
  | left _ ih => exact ih
  | right _ ih => exact ih
  | step _ _ ih => exact ih
  | pass _ ih => exact ih
  | verb _ => exact trivial

/-- No target with alternatives is contained. -/
theorem altFree_of_contains {api t : Route} (h : api.contains t = true) : t.AltFree :=
  (contains_iff_offers.mp h).altFree

/-- An API offers what its endpoints offer, one by one. -/
theorem offers_iff_exists_endpoint {api t : Route} :
    Offers api t ↔ ∃ e ∈ api.endpoints, Offers e t := by
  constructor
  · intro h
    induction h with
    | left _ ih =>
        obtain ⟨e, he, ht⟩ := ih
        exact ⟨e, List.mem_append_left _ he, ht⟩
    | right _ ih =>
        obtain ⟨e, he, ht⟩ := ih
        exact ⟨e, List.mem_append_right _ he, ht⟩
    | step hs _ ih =>
        obtain ⟨e, he, ht⟩ := ih
        exact ⟨_, List.mem_map_of_mem he, .step hs ht⟩
    | pass _ ih =>
        obtain ⟨e, he, ht⟩ := ih
        exact ⟨_, List.mem_map_of_mem he, .pass ht⟩
    | @verb v _ hw => exact ⟨.verb v, List.mem_singleton_self _, .verb hw⟩
  · rintro ⟨e, he, h⟩
    induction api generalizing e t with
    | alt l r ihl ihr =>
        rw [endpoints_alt, List.mem_append] at he
        cases he with
        | inl he => exact .left (ihl e he h)
        | inr he => exact .right (ihr e he h)
    | step s a ih =>
        rw [endpoints_step, List.mem_map] at he
        obtain ⟨e', he', rfl⟩ := he
        cases h with
        | step hs h => exact .step hs (ih e' he' h)
        | pass h => exact .pass (ih e' he' h)
    | verb v =>
        rw [endpoints_verb, List.mem_singleton] at he
        rw [← he]
        exact h

end Route

end VerifiedLinks
