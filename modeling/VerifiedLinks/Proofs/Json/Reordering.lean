import Mathlib.Data.List.Perm.Basic
import Mathlib.Logic.Relation
import VerifiedLinks.Json.Value

/-!
# Values in another order

A step permutes the members of one object, at any place of a value (`Value.Permuted`).
A value is *reordered* by any number of steps (`Value.Reordered`).

Reordering changes neither the depth (`Value.Reordered.depth_eq`) nor what holds no object
(`Value.Reordered.eq_of_rigid`).  An object is reordered by first reordering the values of
its members and then permuting the members (`Value.reordered_object`), and in no other way
(`Value.Reordered.of_object`).
-/

namespace VerifiedLinks.Json

/-! ## Lists side by side -/

theorem forall₂_of_middle {α β : Type} {R : α → β → Prop} {a a' : α} {before behind : List α}
    {bs : List β} (h : List.Forall₂ R (before ++ a' :: behind) bs) (ha : ∀ b, R a' b → R a b) :
    List.Forall₂ R (before ++ a :: behind) bs := by
  induction before generalizing bs with
  | nil =>
      cases h with
      | cons hb hrest => exact .cons (ha _ hb) hrest
  | cons x before ih =>
      cases h with
      | cons hb hrest => exact .cons hb (ih hrest)

theorem forall₂_append_left {α β : Type} {R : α → β → Prop} {as as' : List α} {bs : List β}
    (h : List.Forall₂ R (as ++ as') bs) :
    ∃ bs₁ bs₂, bs = bs₁ ++ bs₂ ∧ List.Forall₂ R as bs₁ ∧ List.Forall₂ R as' bs₂ := by
  induction as generalizing bs with
  | nil => exact ⟨[], bs, rfl, .nil, h⟩
  | cons a as ih =>
      cases h with
      | @cons _ b _ _ hb hrest =>
          obtain ⟨bs₁, bs₂, rfl, h₁, h₂⟩ := ih hrest
          exact ⟨b :: bs₁, bs₂, rfl, .cons hb h₁, h₂⟩

namespace Value

/-! ## Steps -/

/-- The value `w` is `v` with the members of one object permuted. -/
inductive Permuted : (v w : Value) → Prop
  | here {ms ms' : List (String × Value)} : ms.Perm ms' → Permuted (object ms) (object ms')
  | inItem {v w : Value} (before behind : List Value) :
      Permuted v w → Permuted (array (before ++ v :: behind)) (array (before ++ w :: behind))
  | inMember {v w : Value} (name : String) (before behind : List (String × Value)) :
      Permuted v w →
        Permuted (object (before ++ (name, v) :: behind)) (object (before ++ (name, w) :: behind))

/-- The value `w` is `v` with the members of its objects permuted. -/
def Reordered : (v w : Value) → Prop := Relation.ReflTransGen Permuted

theorem Reordered.refl (v : Value) : v.Reordered v := Relation.ReflTransGen.refl

/-! ## Depth -/

/-- One exchange of members leaves the depth as it is. -/
theorem Permuted.depth_le_iff {v w : Value} (h : Permuted v w) (n : Nat) :
    w.depth ≤ n ↔ v.depth ≤ n := by
  induction h generalizing n with
  | here hperm =>
      cases n with
      | zero => simp [depth]
      | succ n =>
          rw [depth_object_le_iff, depth_object_le_iff]
          exact ⟨fun h m hm => h m (hperm.mem_iff.mp hm), fun h m hm => h m (hperm.mem_iff.mpr hm)⟩
  | inItem before behind _ ih =>
      cases n with
      | zero => simp [depth]
      | succ n => simp only [depth_array_le_iff, List.forall_mem_append, List.forall_mem_cons, ih]
  | inMember name before behind _ ih =>
      cases n with
      | zero => simp [depth]
      | succ n => simp only [depth_object_le_iff, List.forall_mem_append, List.forall_mem_cons, ih]

theorem Reordered.depth_eq {v w : Value} (h : v.Reordered w) : w.depth = v.depth := by
  induction h with
  | refl => rfl
  | tail _ hstep ih =>
      rw [← ih]
      exact Nat.le_antisymm ((hstep.depth_le_iff _).mpr (Nat.le_refl _))
        ((hstep.depth_le_iff _).mp (Nat.le_refl _))

/-! ## Values that cannot be reordered -/

/-- No step leads from the value to another one. -/
def Rigid (v : Value) : Prop := ∀ w, ¬ Permuted v w

theorem rigid_text (s : String) : (text s).Rigid := nofun

theorem rigid_array {vs : List Value} (h : ∀ v ∈ vs, v.Rigid) : (array vs).Rigid := by
  intro w hw
  generalize hv : array vs = v at hw
  cases hw with
  | here hperm => cases hv
  | @inItem u w before behind hstep =>
      cases hv
      exact h u (by simp) w hstep
  | inMember name before behind hstep => cases hv

/-- A value without objects in it has nothing to reorder. -/
theorem Reordered.eq_of_rigid {v w : Value} (hv : v.Rigid) (h : v.Reordered w) : w = v := by
  rcases h.cases_head with rfl | ⟨u, hstep, _⟩
  · rfl
  · exact absurd hstep (hv u)

/-! ## Objects -/

/-- A member with its value reordered. -/
def MemberReordered (m m' : String × Value) : Prop := m.1 = m'.1 ∧ m.2.Reordered m'.2

/-- Members can be reordered inside, one after the other. -/
theorem reordered_members {ms ms' : List (String × Value)}
    (h : List.Forall₂ MemberReordered ms ms') (before : List (String × Value)) :
    (object (before ++ ms)).Reordered (object (before ++ ms')) := by
  induction h generalizing before with
  | nil => exact .refl _
  | @cons m m' ms ms' hm _ ih =>
      obtain ⟨name, v⟩ := m
      obtain ⟨_, v'⟩ := m'
      obtain ⟨rfl, hv⟩ := hm
      have hfirst : (object (before ++ (name, v) :: ms)).Reordered
          (object (before ++ (name, v') :: ms)) :=
        hv.lift (fun u => object (before ++ (name, u) :: ms))
          fun _ _ hstep => .inMember name before ms hstep
      have hrest := ih (before ++ [(name, v')])
      rw [List.append_assoc, List.append_assoc] at hrest
      exact hfirst.trans hrest

/-- Reordering the values of the members and then permuting the members reorders an object. -/
theorem reordered_object {ms ms₁ ms₂ : List (String × Value)}
    (hms : List.Forall₂ MemberReordered ms ms₁) (hperm : ms₁.Perm ms₂) :
    (object ms).Reordered (object ms₂) :=
  (reordered_members hms []).tail (.here hperm)

/-- There is no other way to reorder an object. -/
theorem Reordered.of_object {ms : List (String × Value)} {w : Value}
    (h : (object ms).Reordered w) : ∃ ms₁ ms₂, w = object ms₂ ∧
      List.Forall₂ MemberReordered ms ms₁ ∧ ms₁.Perm ms₂ := by
  generalize hv : object ms = v at h
  -- The steps are taken from the first one on.  What follows is split already, and a
  -- permutation in front of it is moved behind the reordering of the values.
  induction h using Relation.ReflTransGen.head_induction_on generalizing ms with
  | refl => exact ⟨ms, ms, hv.symm, List.forall₂_same.mpr fun m _ => ⟨rfl, .refl m.2⟩, .refl ms⟩
  | head hstep _ ih =>
      cases hstep with
      | here hperm =>
          cases hv
          obtain ⟨ms₁, ms₂, hw, hms, hperm'⟩ := ih rfl
          obtain ⟨ms₀, hms₀, hperm₀⟩ := List.perm_comp_forall₂ hperm hms
          exact ⟨ms₀, ms₂, hw, hms₀, hperm₀.trans hperm'⟩
      | inItem before behind hstep => cases hv
      | inMember name before behind hstep =>
          cases hv
          obtain ⟨ms₁, ms₂, hw, hms, hperm⟩ := ih rfl
          refine ⟨ms₁, ms₂, hw, forall₂_of_middle hms fun m hm => ⟨hm.1, ?_⟩, hperm⟩
          exact .head hstep hm.2

theorem members_cons_cases {name : String} {v : Value} {ms ms' : List (String × Value)}
    (h : List.Forall₂ MemberReordered ((name, v) :: ms) ms') :
    ∃ w ms'', ms' = (name, w) :: ms'' ∧ v.Reordered w ∧ List.Forall₂ MemberReordered ms ms'' := by
  cases h with
  | @cons _ m _ ms'' hm hms =>
      obtain ⟨_, w⟩ := m
      obtain ⟨rfl, hw⟩ := hm
      exact ⟨w, ms'', rfl, hw, hms⟩

theorem names_of_forall₂_reordered {ms ms' : List (String × Value)}
    (h : List.Forall₂ MemberReordered ms ms') : ms'.map Prod.fst = ms.map Prod.fst := by
  induction h with
  | nil => rfl
  | cons hm _ ih => rw [List.map_cons, List.map_cons, ih, hm.1]

theorem eq_of_forall₂_rigid {ms ms' : List (String × Value)}
    (h : List.Forall₂ MemberReordered ms ms') (hms : ∀ m ∈ ms, m.2.Rigid) : ms' = ms := by
  induction h with
  | nil => rfl
  | @cons m m' ms ms' hm _ ih =>
      obtain ⟨hrigid, hms⟩ := List.forall_mem_cons.mp hms
      obtain ⟨hname, hvalue⟩ := hm
      rw [ih hms, Prod.ext hname.symm (hvalue.eq_of_rigid hrigid)]

end Value

end VerifiedLinks.Json
