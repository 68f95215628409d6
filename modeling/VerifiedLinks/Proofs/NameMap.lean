import VerifiedLinks.NameMap

/-!
# Entries of maps

The entries of a map stand in one order, so a map is what its entries are in any order
(`NameMap.insertAll_eq_of_perm`), and a name is bound to a value exactly if the two are an
entry (`NameMap.get?_eq_some_iff`).
-/

namespace VerifiedLinks.NameMap

variable {α β : Type}

/-! ## Names -/

/-- No name is bound twice. -/
theorem names_nodup (m : NameMap α) : m.names.Nodup := by
  rw [List.Nodup, names, List.pairwise_map]
  refine m.ascending.imp fun {a b} hab heq => ?_
  rw [heq] at hab
  exact String.lt_irrefl b.1 hab

/-- A name is bound to a value if the two are an entry. -/
theorem get?_eq_some_iff {m : NameMap α} {name : String} {a : α} :
    m.get? name = some a ↔ (name, a) ∈ m.entries := by
  rw [get?, List.lookup_eq_some_iff]
  constructor
  · rintro ⟨before, behind, hsplit, _⟩
    rw [hsplit]
    simp
  · intro h
    obtain ⟨before, behind, hsplit⟩ := List.append_of_mem h
    refine ⟨before, behind, hsplit, fun e he => bne_iff_ne.mpr fun heq => ?_⟩
    have hascending := m.ascending
    rw [hsplit, Ascending, List.pairwise_append] at hascending
    have hlt := hascending.2.2 e he (name, a) List.mem_cons_self
    rw [heq] at hlt
    exact String.lt_irrefl e.1 hlt

/-- The image of a value is bound to the same name. -/
theorem get?_map (f : α → β) (m : NameMap α) (name : String) :
    (m.map f).get? name = (m.get? name).map f := by
  refine Option.ext fun b => ?_
  simp only [Option.map_eq_some_iff, get?_eq_some_iff]
  constructor
  · intro h
    obtain ⟨e, he, h⟩ := List.mem_map.mp h
    cases h
    exact ⟨e.2, he, rfl⟩
  · rintro ⟨a, ha, rfl⟩
    exact List.mem_map_of_mem ha

/-- Those entries are kept whose value has an image. -/
theorem mem_filterMap_iff {f : α → Option β} {m : NameMap α} {name : String} {b : β} :
    (name, b) ∈ (m.filterMap f).entries ↔ ∃ a, m.get? name = some a ∧ f a = some b := by
  simp only [filterMap, List.mem_filterMap, Option.map_eq_some_iff, get?_eq_some_iff]
  constructor
  · rintro ⟨e, he, b', hb, h⟩
    cases h
    exact ⟨e.2, he, hb⟩
  · rintro ⟨a, ha, hb⟩
    exact ⟨(name, a), ha, b, hb, rfl⟩

/-! ## Insertion of many entries -/

/-- The map with all these names bound to their values, later ones on top. -/
def insertAll (m : NameMap α) : List (String × α) → NameMap α
  | [] => m
  | e :: es => (m.insert e.1 e.2).insertAll es

/-- A new name is added to the others. -/
theorem insertEntry_perm {name : String} {es : List (String × α)} (value : α)
    (h : name ∉ es.map Prod.fst) : (insertEntry name value es).Perm ((name, value) :: es) := by
  induction es with
  | nil => exact .refl _
  | cons e es ih =>
      rw [List.map_cons, List.mem_cons, not_or] at h
      rw [insertEntry]
      split
      · exact .refl _
      · rw [if_neg h.1]
        exact ((ih h.2).cons e).trans (.swap ..)

theorem insertAll_perm {m : NameMap α} {es : List (String × α)}
    (h : ((es ++ m.entries).map Prod.fst).Nodup) :
    (m.insertAll es).entries.Perm (es ++ m.entries) := by
  induction es generalizing m with
  | nil => exact .refl _
  | cons e es ih =>
      have hnew : e.1 ∉ m.entries.map Prod.fst := by
        rw [List.cons_append, List.map_cons, List.nodup_cons, List.map_append, List.mem_append,
          not_or] at h
        exact h.1.2
      have hperm : (es ++ (m.insert e.1 e.2).entries).Perm (e :: es ++ m.entries) :=
        ((insertEntry_perm e.2 hnew).append_left es).trans List.perm_middle
      rw [insertAll]
      exact (ih ((hperm.map Prod.fst).nodup_iff.mpr h)).trans hperm

/-- A map is made of its entries, inserted in any order. -/
theorem insertAll_eq_of_perm {m : NameMap α} {es : List (String × α)} (h : es.Perm m.entries) :
    empty.insertAll es = m := by
  have hnodup : ((es ++ empty.entries).map Prod.fst).Nodup := by
    rw [empty, List.append_nil]
    exact (h.map Prod.fst).nodup_iff.mpr m.names_nodup
  have hperm : (empty.insertAll es).entries.Perm m.entries := by
    have hes := insertAll_perm hnodup
    rw [empty, List.append_nil] at hes
    exact hes.trans h
  refine ext (hperm.eq_of_pairwise (fun a b _ _ hab hba => ?_) (ascending _) m.ascending)
  exact absurd (String.lt_trans hab hba) (String.lt_irrefl a.1)

end VerifiedLinks.NameMap
