/-
# Weights of many threads

The work that is left to several threads is a sum of weights.  One of them gets on
and the sum changes by the difference (`sum_set_add`, `sum_update_add`); all of them
change a little, and the sum changes by no more than so much for each
(`sum_map_le_add`).
-/

import Mathlib.Algebra.BigOperators.Group.Finset.Piecewise
import Mathlib.Algebra.Ring.Nat

variable {α : Type*}

/-- The sum over a list, after one entry has changed. -/
theorem sum_set_add (f : α → ℕ) {l : List α} {i : ℕ} {a : α} (hi : l[i]? = some a) (b : α) :
    ((l.set i b).map f).sum + f a = (l.map f).sum + f b := by
  induction l generalizing i with
  | nil => cases hi
  | cons x l ih =>
    cases i with
    | zero =>
      cases hi
      simp only [List.set_cons_zero, List.map_cons, List.sum_cons]
      omega
    | succ i =>
      have hrest := ih (i := i) (by simpa using hi)
      simp only [List.set_cons_succ, List.map_cons, List.sum_cons]
      omega

/-- The sum over the first `n` threads, after one of them has changed. -/
theorem sum_update_add (f : α → ℕ) {n i : ℕ} (hi : i < n) (g : ℕ → α) (b : α) :
    ∑ j ∈ Finset.range n, f (Function.update g i b j) + f (g i) =
      ∑ j ∈ Finset.range n, f (g j) + f b := by
  have hmem : i ∈ Finset.range n := Finset.mem_range.2 hi
  have hold := Finset.sum_update_of_mem hmem (fun j => f (g j)) (f (g i))
  have hnew := Finset.sum_update_of_mem hmem (fun j => f (g j)) (f b)
  rw [Function.update_eq_self] at hold
  simp only [Function.apply_update (fun _ => f) g i b]
  omega

/-- The sum over a list, when each weight grows by at most `k`. -/
theorem sum_map_le_add {f f' : α → ℕ} {k : ℕ} (l : List α) (h : ∀ a, f' a ≤ f a + k) :
    (l.map f').sum ≤ (l.map f).sum + k * l.length := by
  induction l with
  | nil => simp
  | cons x l ih =>
    have hx := h x
    simp only [List.map_cons, List.sum_cons, List.length_cons, Nat.mul_add]
    omega
