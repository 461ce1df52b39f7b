/-
# Handles of a process

A table of numbers, each free, mine, or another's.  A call that creates a handle takes a
free number, and `close` frees a number whoever has it.  `Owns table own` says that the
numbers that are mine are those of the list, each once; it is kept by every call on a
number of the list (`Owns.create`, `Owns.close`) and by what happens to the others
(`Owns.update`).
-/

import Mathlib.Data.List.Perm.Basic
import Mathlib.Data.Nat.Notation
import Mathlib.Logic.Function.Basic

namespace Handles

/-- Who has a number. -/
inductive Holder where
  | mine
  | other
  deriving DecidableEq, Repr

abbrev Table := ℕ → Option Holder

/-- A call that creates a handle: it fails, or takes a number that is free. -/
def create (table : Table) : Option ℕ → Option Table
  | none => some table
  | some n => if table n = none then some (Function.update table n (some .mine)) else none

/-- `if (fd >= 0) close(fd)`, whoever has the number. -/
def close (table : Table) : Option ℕ → Table
  | none => table
  | some n => Function.update table n none

/-- A call that fails creates nothing. -/
@[simp] theorem create_none (table : Table) : create table none = some table := rfl

/-- -1 is not closed. -/
@[simp] theorem close_none (table : Table) : close table none = table := rfl

/-- A number that is closed is free. -/
@[simp] theorem close_some (table : Table) (n : ℕ) :
    close table (some n) = Function.update table n none := rfl

/-- The numbers of the table that are mine are these, each once. -/
structure Owns (table : Table) (own : List ℕ) : Prop where
  nodup : own.Nodup
  mem : ∀ n, table n = some .mine ↔ n ∈ own

variable {table table' : Table} {own own' : List ℕ} {n : ℕ}

/-- The order of the numbers does not matter. -/
theorem Owns.perm (h : Owns table own) (hperm : own'.Perm own) : Owns table own' :=
  ⟨hperm.nodup_iff.2 h.nodup, fun m => by rw [h.mem, hperm.mem_iff]⟩

/-- A new number is one of the own. -/
theorem Owns.create {fd : Option ℕ} (h : Owns table own)
    (htable : Handles.create table fd = some table') (hperm : own'.Perm (fd.toList ++ own)) :
    Owns table' own' := by
  cases fd with
  | none =>
    obtain rfl : table = table' := Option.some.inj htable
    exact h.perm hperm
  | some n =>
    simp only [Handles.create, Option.ite_none_right_eq_some, Option.some.injEq] at htable
    obtain ⟨hfree, rfl⟩ := htable
    have hnot : n ∉ own := fun hmem => by simp [(h.mem n).2 hmem] at hfree
    refine ⟨hperm.nodup_iff.2 (List.nodup_cons.2 ⟨hnot, h.nodup⟩), fun m => ?_⟩
    rw [hperm.mem_iff, Option.toList_some, List.singleton_append, List.mem_cons, ← h.mem]
    rcases eq_or_ne m n with rfl | hne
    · simp
    · simp [hne]

/-- A number that is closed is not. -/
theorem Owns.close {fd : Option ℕ} (h : Owns table own) (hperm : own.Perm (fd.toList ++ own')) :
    Owns (Handles.close table fd) own' := by
  cases fd with
  | none => exact h.perm hperm.symm
  | some n =>
    rw [Option.toList_some, List.singleton_append] at hperm
    obtain ⟨hnot, hnodup⟩ := List.nodup_cons.1 (hperm.nodup_iff.1 h.nodup)
    refine ⟨hnodup, fun m => ?_⟩
    rw [close_some]
    rcases eq_or_ne m n with rfl | hne
    · simp [hnot]
    · rw [Function.update_of_ne hne, h.mem, hperm.mem_iff, List.mem_cons, or_iff_right hne]

/-- The entry of a number that is not mine may change. -/
theorem Owns.update (h : Owns table own) (hn : n ∉ own) {a : Option Holder}
    (ha : a ≠ some .mine) : Owns (Function.update table n a) own := by
  refine ⟨h.nodup, fun m => ?_⟩
  rcases eq_or_ne m n with rfl | hne
  · simp [hn, ha]
  · rw [Function.update_of_ne hne, h.mem]

/-- A call that creates a handle takes no number from another. -/
theorem create_other {fd : Option ℕ} (htable : create table fd = some table')
    (hother : table n = some .other) : table' n = some .other := by
  cases fd with
  | none =>
    obtain rfl : table = table' := Option.some.inj htable
    exact hother
  | some m =>
    simp only [create, Option.ite_none_right_eq_some, Option.some.injEq] at htable
    obtain ⟨hfree, rfl⟩ := htable
    have hne : n ≠ m := fun heq => by simp [← heq, hother] at hfree
    rw [Function.update_of_ne hne, hother]

/-- `close` takes its own number only. -/
theorem mem_of_close {fd : Option ℕ} (hother : table n = some .other)
    (hlost : close table fd n ≠ some .other) : n ∈ fd.toList := by
  cases fd with
  | none => exact absurd hother hlost
  | some m =>
    by_contra hne
    rw [close_some, Function.update_of_ne (by simpa using hne)] at hlost
    exact hlost hother

end Handles
