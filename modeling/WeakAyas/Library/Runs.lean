/-
# The runs between separators

A run of a list is a non-empty range `[i, j)` of its positions with no separator
inside that cannot be extended (`IsRun`).  A scan from the left with the start of
the open run carried along finds the runs in their order (`scan`, `mem_scan`,
`pairwise_scan`).
-/

import Mathlib.Data.List.Basic
import Mathlib.Tactic.SplitIfs

namespace Runs

variable {α : Type} {q : α → Bool} {s : List α} {i j : ℕ}

/-- There is a separator at position `k`. -/
def SeparatorAt (q : α → Bool) (s : List α) (k : ℕ) : Prop := ∃ a, s[k]? = some a ∧ q a = true

/-- Nothing but separators and the ends bounds the range `[i, j)`, and there is
none in it. -/
structure IsRun (q : α → Bool) (s : List α) (i j : ℕ) : Prop where
  lt : i < j
  le : j ≤ s.length
  inside : ∀ k, i ≤ k → k < j → ¬ SeparatorAt q s k
  left : ∀ k, k + 1 = i → SeparatorAt q s k
  right : j < s.length → SeparatorAt q s j

/-- The part of the list in a range. -/
def part (s : List α) (r : ℕ × ℕ) : List α := (s.drop r.1).take (r.2 - r.1)

/-- A separator is a place of the list. -/
theorem SeparatorAt.lt {k : ℕ} (h : SeparatorAt q s k) : k < s.length := by
  obtain ⟨a, ha, -⟩ := h
  exact (List.getElem?_eq_some_iff.1 ha).1

/-- It is read off the rest of the list. -/
theorem separatorAt_iff {a : α} {rest : List α} (h : s.drop j = a :: rest) :
    SeparatorAt q s j ↔ q a = true := by
  have hget : s[j]? = some a := by rw [← List.head?_drop, h, List.head?_cons]
  simp [SeparatorAt, hget]

/-- A rest that is not empty begins at a place of the list. -/
theorem lt_of_drop_eq_cons {a : α} {rest : List α} (h : s.drop j = a :: rest) : j < s.length := by
  by_contra hle
  rw [List.drop_eq_nil_of_le (Nat.le_of_not_lt hle)] at h
  exact List.cons_ne_nil a rest h.symm

/-- The rest after the next element. -/
theorem drop_succ_of_drop_eq_cons {a : α} {rest : List α} (h : s.drop j = a :: rest) :
    s.drop (j + 1) = rest := by
  rw [← List.drop_drop, h, List.drop_one, List.tail_cons]

/-- A part is as long as its range. -/
theorem length_part {r : ℕ × ℕ} (h : r.2 ≤ s.length) : (part s r).length = r.2 - r.1 := by
  rw [part, List.length_take, List.length_drop]
  omega

/-- An empty range has an empty part. -/
theorem part_self (s : List α) (i : ℕ) : part s (i, i) = [] := by
  rw [part, Nat.sub_self, List.take_zero]

/-- The next position is appended to the part before it. -/
theorem part_succ {a : α} {rest : List α} (h : s.drop j = a :: rest) (hij : i ≤ j) :
    part s (i, j + 1) = part s (i, j) ++ [a] := by
  have hget : (s.drop i)[j - i]? = some a := by
    rw [List.getElem?_drop, Nat.add_sub_cancel' hij, ← List.head?_drop, h, List.head?_cons]
  rw [part, part, Nat.succ_sub hij, List.take_add_one, hget]
  rfl

/-! ### Open ranges -/

/-- A range that may still grow at its right end. -/
structure OpenRange (q : α → Bool) (s : List α) (i j : ℕ) : Prop where
  start_le : i ≤ j
  le : j ≤ s.length
  inside : ∀ k, i ≤ k → k < j → ¬ SeparatorAt q s k
  left : ∀ k, k + 1 = i → SeparatorAt q s k

/-- At the beginning the open range is empty. -/
theorem openRange_zero : OpenRange q s 0 0 where
  start_le := Nat.le_refl _
  le := Nat.zero_le _
  inside _ _ hk := absurd hk (Nat.not_lt_zero _)
  left _ hk := absurd hk (Nat.succ_ne_zero _)

/-- A position without a separator extends the range. -/
theorem OpenRange.succ (h : OpenRange q s i j) (hlt : j < s.length) (hj : ¬ SeparatorAt q s j) :
    OpenRange q s i (j + 1) where
  start_le := Nat.le_succ_of_le h.start_le
  le := hlt
  inside k hi hk := by
    rcases Nat.lt_succ_iff_lt_or_eq.1 hk with hk | rfl
    · exact h.inside k hi hk
    · exact hj
  left := h.left

/-- After a separator a new range starts. -/
theorem openRange_after (hj : SeparatorAt q s j) : OpenRange q s (j + 1) (j + 1) where
  start_le := Nat.le_refl _
  le := hj.lt
  inside k hi hk := absurd hk (Nat.not_lt.2 hi)
  left k hk := by
    obtain rfl : k = j := by omega
    exact hj

/-- An open range that is not empty and cannot grow is a run. -/
theorem OpenRange.isRun (h : OpenRange q s i j) (hlt : i < j)
    (hj : j < s.length → SeparatorAt q s j) : IsRun q s i j where
  lt := hlt
  le := h.le
  inside := h.inside
  left := h.left
  right := hj

/-- **A run that starts in an open range is that range**, once it cannot grow. -/
theorem OpenRange.eq_of_isRun (h : OpenRange q s i j) (hj : j < s.length → SeparatorAt q s j)
    {a b : ℕ} (hr : IsRun q s a b) (hi : i ≤ a) (ha : a ≤ j) : a = i ∧ b = j := by
  have hlt := hr.lt
  have hle := hr.le
  have hbj : b ≤ j := by
    by_contra hjb
    exact hr.inside j ha (by omega) (hj (by omega))
  have hai : a = i := by
    by_contra hne
    exact h.inside (a - 1) (by omega) (by omega) (hr.left (a - 1) (by omega))
  refine ⟨hai, ?_⟩
  by_contra hne
  have hj' := h.le
  exact h.inside b (by omega) (by omega) (hr.right (by omega))

/-! ### The scan -/

/-- The open range `[i, j)`, when it is not empty, before the later runs. -/
def close (i j : ℕ) (rs : List (ℕ × ℕ)) : List (ℕ × ℕ) := if i < j then (i, j) :: rs else rs

/-- The runs from the open range `[i, j)` on, the rest of the list being given. -/
def scan (q : α → Bool) (i j : ℕ) : List α → List (ℕ × ℕ)
  | [] => close i j []
  | a :: rest => if q a then close i j (scan q (j + 1) (j + 1) rest) else scan q i (j + 1) rest

/-- To close a range adds it, unless it is empty. -/
theorem mem_close {r : ℕ × ℕ} {rs : List (ℕ × ℕ)} :
    r ∈ close i j rs ↔ (i < j ∧ r = (i, j)) ∨ r ∈ rs := by
  unfold close
  split_ifs with h <;> simp [h]

/-- The runs at or after the start of an open range that cannot grow: the range
itself, when it is not empty, and the later ones. -/
theorem OpenRange.isRun_iff (h : OpenRange q s i j) (hj : j < s.length → SeparatorAt q s j)
    {r : ℕ × ℕ} : (IsRun q s r.1 r.2 ∧ i ≤ r.1) ↔
      (i < j ∧ r = (i, j)) ∨ (IsRun q s r.1 r.2 ∧ j + 1 ≤ r.1) := by
  constructor
  · rintro ⟨hr, hi⟩
    by_cases ha : r.1 ≤ j
    · obtain ⟨h₁, h₂⟩ := h.eq_of_isRun hj hr hi ha
      exact .inl ⟨h₁ ▸ h₂ ▸ hr.lt, Prod.ext h₁ h₂⟩
    · exact .inr ⟨hr, Nat.lt_of_not_le ha⟩
  · rintro (⟨hlt, rfl⟩ | ⟨hr, hj⟩)
    · exact ⟨h.isRun hlt hj, Nat.le_refl _⟩
    · exact ⟨hr, by have := h.start_le; omega⟩

/-- **The scan finds the runs and nothing else.** -/
theorem mem_scan {rest : List α} (h : OpenRange q s i j) (hrest : s.drop j = rest) {r : ℕ × ℕ} :
    r ∈ scan q i j rest ↔ IsRun q s r.1 r.2 ∧ i ≤ r.1 := by
  induction rest generalizing i j with
  | nil =>
    have hend : s.length ≤ j := List.drop_eq_nil_iff.1 hrest
    rw [scan, mem_close, h.isRun_iff fun hlt => absurd hlt (Nat.not_lt.2 hend)]
    refine or_congr_right ⟨fun hr => absurd hr List.not_mem_nil, fun ⟨hr, hj⟩ => ?_⟩
    have hlt := hr.lt
    have hle := hr.le
    omega
  | cons a rest ih =>
    rw [scan]
    split_ifs with hq
    · have hsep := (separatorAt_iff (q := q) hrest).2 hq
      rw [mem_close, ih (openRange_after hsep) (drop_succ_of_drop_eq_cons hrest),
        h.isRun_iff fun _ => hsep]
    · have hopen := h.succ (lt_of_drop_eq_cons hrest) ((separatorAt_iff hrest).not.2 hq)
      exact ih hopen (drop_succ_of_drop_eq_cons hrest)

/-- The scan finds the runs in their order, no two of them adjacent. -/
theorem pairwise_scan {rest : List α} (h : OpenRange q s i j) (hrest : s.drop j = rest) :
    (scan q i j rest).Pairwise fun r r' => r.2 < r'.1 := by
  induction rest generalizing i j with
  | nil =>
    rw [scan, close]
    split_ifs
    · exact List.pairwise_singleton _ _
    · exact .nil
  | cons a rest ih =>
    have hrest' := drop_succ_of_drop_eq_cons hrest
    rw [scan]
    split_ifs with hq
    · have hopen := openRange_after ((separatorAt_iff (q := q) hrest).2 hq)
      rw [close]
      split_ifs
      · exact .cons (fun r hr => ((mem_scan hopen hrest').1 hr).2) (ih hopen hrest')
      · exact ih hopen hrest'
    · exact ih (h.succ (lt_of_drop_eq_cons hrest) ((separatorAt_iff hrest).not.2 hq)) hrest'

end Runs
