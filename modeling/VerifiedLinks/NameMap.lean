/-!
# Maps in name order

A `NameMap` binds each of finitely many names to a value and keeps the names in
order.  The order of names is that of their code points, which is also the order
of their UTF-8 bytes.  The order is part of the type: a map *is* its ascending
list of entries, so two maps are equal as soon as they have the same entries
(`NameMap.ext`).

An insertion keeps the order (`ascending_insertEntry`), and so do `map`, which keeps all
names, and `filterMap`, which keeps those of some entries.
-/

namespace VerifiedLinks

/-- The entries stand in strictly ascending order of their names. -/
def Ascending {α : Type} (entries : List (String × α)) : Prop :=
  entries.Pairwise fun a b => a.1 < b.1

/-- Values bound to names. -/
structure NameMap (α : Type) where
  /-- The bindings, by ascending name. -/
  entries : List (String × α)
  /-- The names ascend, so no two are the same. -/
  ascending : Ascending entries

namespace NameMap

variable {α β : Type}

@[ext] theorem ext {m n : NameMap α} (h : m.entries = n.entries) : m = n := by
  cases m; cases n; cases h; rfl

instance [DecidableEq α] : DecidableEq (NameMap α) := fun m n =>
  if h : m.entries = n.entries then isTrue (ext h) else isFalse fun h' => h (h' ▸ rfl)

/-! ## Reading -/

/-- No bindings. -/
def empty : NameMap α := ⟨[], List.Pairwise.nil⟩

/-- The number of bindings. -/
def size (m : NameMap α) : Nat := m.entries.length

/-- All names, in order. -/
def names (m : NameMap α) : List String := m.entries.map Prod.fst

/-- The value bound to a name. -/
def get? (m : NameMap α) (name : String) : Option α := m.entries.lookup name

/-! ## Insertion and removal -/

/-- The entries with a name bound to a value, in place of what it was bound to. -/
def insertEntry (name : String) (value : α) : List (String × α) → List (String × α)
  | [] => [(name, value)]
  | e :: es =>
    if name < e.1 then (name, value) :: e :: es
    else if name = e.1 then (name, value) :: es
    else e :: insertEntry name value es

theorem mem_insertEntry {name : String} {value : α} {e : String × α} :
    ∀ {es : List (String × α)}, e ∈ insertEntry name value es → e = (name, value) ∨ e ∈ es
  | [], h => by simpa [insertEntry] using h
  | e' :: es, h => by
    simp only [insertEntry] at h
    split at h
    · simpa using h
    · split at h
      · simp only [List.mem_cons] at h ⊢
        exact h.imp id Or.inr
      · simp only [List.mem_cons] at h ⊢
        rcases h with h | h
        · exact Or.inr (Or.inl h)
        · exact (mem_insertEntry h).imp id Or.inr

/-- The new entry is put where its name belongs. -/
theorem ascending_insertEntry (name : String) (value : α) :
    ∀ {es : List (String × α)}, Ascending es → Ascending (insertEntry name value es)
  | [], _ => List.pairwise_singleton ..
  | e :: es, h => by
    simp only [insertEntry]
    have ⟨he, hes⟩ := List.pairwise_cons.1 h
    split
    next hlt =>
      refine List.pairwise_cons.2 ⟨fun e' he' => ?_, h⟩
      rcases List.mem_cons.1 he' with rfl | he'
      · exact hlt
      · exact String.lt_trans hlt (he e' he')
    next hlt =>
      split
      next heq => exact List.pairwise_cons.2 ⟨fun e' he' => heq ▸ he e' he', hes⟩
      next hne =>
        refine List.pairwise_cons.2 ⟨fun e' he' => ?_, ascending_insertEntry name value hes⟩
        rcases mem_insertEntry he' with rfl | he'
        · refine String.not_le.1 fun hle => hne ?_
          exact String.le_antisymm hle (String.not_lt.1 hlt)
        · exact he e' he'

/-- The map with a name bound to a value. -/
def insert (m : NameMap α) (name : String) (value : α) : NameMap α :=
  ⟨insertEntry name value m.entries, ascending_insertEntry name value m.ascending⟩

/-- The map without a name. -/
def erase (m : NameMap α) (name : String) : NameMap α :=
  ⟨m.entries.filter (·.1 != name), m.ascending.filter _⟩

/-! ## Maps from maps -/

/-- The map with each value replaced by its image. -/
def map (f : α → β) (m : NameMap α) : NameMap β :=
  ⟨m.entries.map fun e => (e.1, f e.2), by
    simpa [Ascending, List.pairwise_map] using m.ascending⟩

@[simp] theorem names_map (f : α → β) (m : NameMap α) : (m.map f).names = m.names := by
  simp [names, map]

/-- The bindings of the values that have an image, each bound to it. -/
def filterMap (f : α → Option β) (m : NameMap α) : NameMap β :=
  ⟨m.entries.filterMap fun e => (f e.2).map (e.1, ·), by
    refine List.pairwise_filterMap.2 (m.ascending.imp fun {a b} hab c hc d hd => ?_)
    obtain ⟨_, _, rfl⟩ := Option.map_eq_some_iff.1 hc
    obtain ⟨_, _, rfl⟩ := Option.map_eq_some_iff.1 hd
    exact hab⟩

end NameMap

end VerifiedLinks
