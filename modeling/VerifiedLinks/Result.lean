/-!
# Results

Facts about computations that may fail, for the many places where one follows
another: the whole succeeds exactly when each part does, and so does a computation
on every element of a list.
-/

namespace VerifiedLinks

/-- A computation in two steps succeeds if the first does and the second does with its result. -/
theorem bind_eq_ok {ε α β : Type} {x : Except ε α} {f : α → Except ε β} {b : β} :
    (x >>= f) = .ok b ↔ ∃ a, x = .ok a ∧ f a = .ok b := by
  cases x with
  | error e =>
    refine ⟨fun h => ?_, fun ⟨a, h, _⟩ => ?_⟩
    · cases h
    · cases h
  | ok a =>
    refine ⟨fun h => ⟨a, rfl, h⟩, fun ⟨a', h, h'⟩ => ?_⟩
    cases h
    exact h'

theorem seq_eq_ok {ε : Type} {x y : Except ε Unit} :
    (do x; y) = .ok () ↔ x = .ok () ∧ y = .ok () := by
  rw [bind_eq_ok]
  exact ⟨fun ⟨(), hx, hy⟩ => ⟨hx, hy⟩, fun ⟨hx, hy⟩ => ⟨(), hx, hy⟩⟩

/-- Of two checks, the first that fails is told. -/
theorem seq_eq_error {ε : Type} {x y : Except ε Unit} {e : ε} :
    (do x; y) = .error e ↔ x = .error e ∨ x = .ok () ∧ y = .error e := by
  cases x with
  | error e' => simp [bind, Except.bind]
  | ok u => simp [bind, Except.bind]

theorem seq_ok {ε : Type} (x : Except ε Unit) : (do x; .ok ()) = x := by
  cases x <;> rfl

theorem mapError_eq_ok_iff {ε ε' α : Type} {f : ε → ε'} {x : Except ε α} {a : α} :
    x.mapError f = .ok a ↔ x = .ok a := by
  cases x with
  | ok b => exact ⟨fun h => by cases h; rfl, fun h => by cases h; rfl⟩
  | error e => exact ⟨nofun, nofun⟩

/-! ## Lists -/

variable {ε α β γ : Type}

theorem mapM_map_eq_ok {f : β → Except ε γ} {g : α → β} {h : α → γ} {xs : List α}
    (hf : ∀ x ∈ xs, f (g x) = .ok (h x)) : (xs.map g).mapM f = .ok (xs.map h) := by
  induction xs with
  | nil => rfl
  | cons x xs ih =>
      obtain ⟨hx, hxs⟩ := List.forall_mem_cons.mp hf
      rw [List.map_cons, List.mapM_cons, hx, ih hxs]
      rfl

theorem mapM_cons_eq_ok {f : α → Except ε β} {x : α} {xs : List α} {ys : List β} :
    (x :: xs).mapM f = .ok ys ↔ ∃ y ys', f x = .ok y ∧ xs.mapM f = .ok ys' ∧ ys = y :: ys' := by
  rw [List.mapM_cons, bind_eq_ok]
  constructor
  · rintro ⟨y, hy, h⟩
    obtain ⟨ys', hys, h⟩ := bind_eq_ok.mp h
    cases h
    exact ⟨y, ys', hy, hys, rfl⟩
  · rintro ⟨y, ys', hy, hys, rfl⟩
    exact ⟨y, hy, bind_eq_ok.mpr ⟨ys', hys, rfl⟩⟩

/-- If the whole list has results, so has each element. -/
theorem exists_result_of_mapM {f : α → Except ε β} {xs : List α} {ys : List β}
    (h : xs.mapM f = .ok ys) : ∀ x ∈ xs, ∃ y, f x = .ok y := by
  induction xs generalizing ys with
  | nil => simp
  | cons x xs ih =>
      obtain ⟨y, ys', hy, hys, rfl⟩ := mapM_cons_eq_ok.mp h
      exact List.forall_mem_cons.mpr ⟨⟨y, hy⟩, ih hys⟩

/-- Each of the results is the result of an element. -/
theorem exists_of_mem_mapM {f : α → Except ε β} {xs : List α} {ys : List β}
    (h : xs.mapM f = .ok ys) : ∀ y ∈ ys, ∃ x ∈ xs, f x = .ok y := by
  induction xs generalizing ys with
  | nil => cases h; simp
  | cons x xs ih =>
      obtain ⟨y, ys', hy, hys, rfl⟩ := mapM_cons_eq_ok.mp h
      refine List.forall_mem_cons.mpr ⟨⟨x, List.mem_cons_self, hy⟩, fun z hz => ?_⟩
      obtain ⟨w, hw, hz⟩ := ih hys z hz
      exact ⟨w, List.mem_cons_of_mem x hw, hz⟩

/-! ## Scans

A check of every element of a list stops at the first one that fails.
-/

/-- The element `x` of the list has the property, and none in front of it has. -/
def IsFirst (p : α → Prop) (xs : List α) (x : α) : Prop :=
  ∃ before behind, xs = before ++ x :: behind ∧ (∀ y ∈ before, ¬ p y) ∧ p x

theorem not_isFirst_nil {p : α → Prop} {x : α} : ¬ IsFirst p [] x := by
  rintro ⟨before, behind, h, _⟩
  cases before <;> cases h

theorem isFirst_cons_iff {p : α → Prop} {x z : α} {xs : List α} :
    IsFirst p (x :: xs) z ↔ z = x ∧ p x ∨ ¬ p x ∧ IsFirst p xs z := by
  constructor
  · rintro ⟨before, behind, h, hbefore, hz⟩
    cases before with
    | nil =>
        cases h
        exact .inl ⟨rfl, hz⟩
    | cons y before =>
        cases h
        obtain ⟨hy, hbefore⟩ := List.forall_mem_cons.mp hbefore
        exact .inr ⟨hy, before, behind, rfl, hbefore, hz⟩
  · rintro (⟨rfl, hz⟩ | ⟨hx, before, behind, rfl, hbefore, hz⟩)
    · exact ⟨[], xs, rfl, by simp, hz⟩
    · exact ⟨x :: before, behind, rfl, List.forall_mem_cons.mpr ⟨hx, hbefore⟩, hz⟩

theorem forM_append {f : α → Except ε Unit} (xs ys : List α) :
    (xs ++ ys).forM f = (do xs.forM f; ys.forM f) := by
  induction xs with
  | nil => rfl
  | cons x xs ih =>
      show (do f x; (xs ++ ys).forM f) = (do (do f x; xs.forM f); ys.forM f)
      rw [ih]
      cases f x <;> rfl

/-- A check that stands in front of every element need be made only once, if there is one. -/
theorem forM_map_seq {f : β → Except ε Unit} {h : α → Except ε Unit} {g : α → β}
    {x : Except ε Unit} (hf : ∀ a, f (g a) = (do x; h a)) {xs : List α} (hxs : xs ≠ []) :
    (xs.map g).forM f = (do x; xs.forM h) := by
  cases x with
  | ok u =>
      clear hxs
      induction xs with
      | nil => rfl
      | cons a xs ih =>
          show (do f (g a); (xs.map g).forM f) = (do h a; xs.forM h)
          rw [ih, hf]
          rfl
  | error e =>
      obtain ⟨a, xs, rfl⟩ := List.exists_cons_of_ne_nil hxs
      show (do f (g a); (xs.map g).forM f) = .error e
      rw [hf]
      rfl

/-- All checks pass exactly if each of them does. -/
theorem forM_eq_ok_iff {f : α → Except ε Unit} {xs : List α} :
    xs.forM f = .ok () ↔ ∀ x ∈ xs, f x = .ok () := by
  induction xs with
  | nil => exact iff_of_true rfl (by simp)
  | cons x xs ih =>
      show (do f x; xs.forM f) = .ok () ↔ _
      rw [seq_eq_ok, ih, List.forall_mem_cons]

/-- The error of a scan is that of the first element that fails. -/
theorem forM_eq_error_iff {f : α → Except ε Unit} {xs : List α} {e : ε} :
    xs.forM f = .error e ↔ ∃ x, IsFirst (fun y => f y ≠ .ok ()) xs x ∧ f x = .error e := by
  induction xs with
  | nil =>
      refine iff_of_false (fun h => ?_) (fun ⟨x, h, _⟩ => not_isFirst_nil h)
      cases h
  | cons x xs ih =>
      show (do f x; xs.forM f) = .error e ↔ _
      simp only [isFirst_cons_iff]
      cases hx : f x with
      | ok u =>
          show xs.forM f = .error e ↔ _
          simpa using ih
      | error e' =>
          show Except.error e' = .error e ↔ _
          simp [hx]

end VerifiedLinks
