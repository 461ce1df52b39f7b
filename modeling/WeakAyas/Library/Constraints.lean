/-
# Keys of tables

Tables as lists of rows, with the two constraints that a schema puts on them: the
rows have different keys (`Unique`), and a row refers to a row of another table
(`Refers`).  Both are kept by the changes that a database makes under them: a row
with a new key comes in, a row with a parent comes in, and rows go together with
the rows that refer to them (`ON DELETE CASCADE`).
-/

import Mathlib.Data.List.Nodup

namespace Constraints

variable {α β κ ι : Type*}

/-! ### Unique keys -/

/-- The rows have different keys. -/
def Unique (key : α → κ) (rows : List α) : Prop := (rows.map key).Nodup

/-- A row with a new key comes in. -/
theorem Unique.insert (key : α → κ) {rows : List α} {a : α} (h : Unique key rows)
    (hnew : ∀ b ∈ rows, key b ≠ key a) : Unique key (rows ++ [a]) := by
  have hne : key a ∉ rows.map key := by
    intro hmem
    obtain ⟨b, hb, heq⟩ := List.mem_map.1 hmem
    exact hnew b hb heq
  rw [Unique, List.map_append, List.map_singleton, ← List.concat_eq_append]
  exact h.concat hne

/-- Rows go. -/
theorem Unique.delete {key : α → κ} {rows : List α} (h : Unique key rows) (p : α → Bool) :
    Unique key (rows.filter p) := h.sublist (List.filter_sublist.map key)

/-- **A new row that is deleted by its key leaves the rows as they were.** -/
theorem filter_insert {rows : List α} {a : α} {p : α → Bool} (hnew : ∀ b ∈ rows, p b = true)
    (ha : p a = false) : (rows ++ [a]).filter p = rows := by
  have hrows : rows.filter p = rows := List.filter_eq_self.2 hnew
  have hrow : [a].filter p = [] := by simp [ha]
  rw [List.filter_append, hrows, hrow, List.append_nil]

/-! ### References -/

/-- Every row refers to a row of the other table, unless its reference is null. -/
def Refers (ref : α → Option ι) (key : β → ι) (rows : List α) (parents : List β) : Prop :=
  ∀ a ∈ rows, ∀ i ∈ ref a, ∃ b ∈ parents, key b = i

variable {ref : α → Option ι} {key : β → ι} {rows : List α} {parents : List β}

theorem Refers.insertParent (h : Refers ref key rows parents) (b : β) :
    Refers ref key rows (parents ++ [b]) := by
  intro a ha i hi
  obtain ⟨b', hb', hkey⟩ := h a ha i hi
  exact ⟨b', List.mem_append_left _ hb', hkey⟩

/-- A row with a parent comes in. -/
theorem Refers.insert (h : Refers ref key rows parents) {a : α}
    (hparent : ∀ i ∈ ref a, ∃ b ∈ parents, key b = i) : Refers ref key (rows ++ [a]) parents := by
  intro a' ha' i hi
  rcases List.mem_append.1 ha' with ha' | ha'
  · exact h a' ha' i hi
  · obtain rfl := List.mem_singleton.1 ha'
    exact hparent i hi

theorem Refers.delete (h : Refers ref key rows parents) (p : α → Bool) :
    Refers ref key (rows.filter p) parents :=
  fun a ha => h a (List.mem_filter.1 ha).1

/-- **Parents go together with the rows that refer to them.** -/
theorem Refers.cascade (h : Refers ref key rows parents) {p : α → Bool} {q : β → Bool}
    (hcascade : ∀ a ∈ rows, ∀ b ∈ parents, ref a = some (key b) → q b = false → p a = false) :
    Refers ref key (rows.filter p) (parents.filter q) := by
  intro a ha i hi
  obtain ⟨ha, hp⟩ := List.mem_filter.1 ha
  obtain ⟨b, hb, rfl⟩ := h a ha i hi
  refine ⟨b, List.mem_filter.2 ⟨hb, ?_⟩, rfl⟩
  cases hq : q b
  · exact absurd hp (by simp [hcascade a ha b hb hi hq])
  · rfl

/-- **Nothing refers to a row that is not there.** -/
theorem Refers.not_ref (h : Refers ref key rows parents) {i : ι} (hi : ∀ b ∈ parents, key b ≠ i) :
    ∀ a ∈ rows, ref a ≠ some i := by
  intro a ha href
  obtain ⟨b, hb, hkey⟩ := h a ha i href
  exact hi b hb hkey

end Constraints
