/-
# Scripts of calls that can fail

A script makes calls on a state, one after the other, each of which may fail
under a pattern of faults `f : ℕ → Bool` over the numbers of the calls.  A call
that fails has no effect and ends the script; an assignment changes the state
but is no call.

Undisturbed, a script makes `calls b s` calls and ends with `value b s` in the
state `final b s`; `stateAt b s k` is the state in which it makes its `k`-th
call.  Those four describe every run: without a fault among its calls it ends as
undisturbed (`run_of_quiet`), else it stops at the first fault, in the state of
that moment (`run_of_fault`).
-/

import Mathlib.Order.Nat
import Mathlib.Data.Nat.Find
import Mathlib.Tactic.SplitIfs

/-- Calls and assignments on a state of type `σ`, and a value at the end. -/
inductive Script (σ α : Type) where
  | ret (a : α)
  | call (effect : σ → σ) (next : σ → Script σ α)
  | assign (effect : σ → σ) (next : Script σ α)

namespace Script

variable {σ α β : Type}

/-- Run one script after another. -/
def bind : Script σ α → (α → Script σ β) → Script σ β
  | ret a, g => g a
  | call effect next, g => call effect fun s => (next s).bind g
  | assign effect next, g => assign effect (next.bind g)

instance : Monad (Script σ) where
  pure := ret
  bind := bind

/-- The calls that an undisturbed run makes. -/
def calls : Script σ α → σ → ℕ
  | ret _, _ => 0
  | call effect next, s => (next s).calls (effect s) + 1
  | assign effect next, s => next.calls (effect s)

/-- The value of an undisturbed run. -/
def value : Script σ α → σ → α
  | ret a, _ => a
  | call effect next, s => (next s).value (effect s)
  | assign effect next, s => next.value (effect s)

/-- The state after an undisturbed run. -/
def final : Script σ α → σ → σ
  | ret _, s => s
  | call effect next, s => (next s).final (effect s)
  | assign effect next, s => next.final (effect s)

/-- The state of an undisturbed run when it makes its call `k`, its final state
from there on. -/
def stateAt : Script σ α → σ → ℕ → σ
  | ret _, s, _ => s
  | call _ _, s, 0 => s
  | call effect next, s, k + 1 => (next s).stateAt (effect s) k
  | assign effect next, s, k => next.stateAt (effect s) k

/-- Run from call number `n` on under the faults `f`: the value, unless a call
failed, the number of the next call, and the state. -/
def run (f : ℕ → Bool) : Script σ α → ℕ → σ → Option α × ℕ × σ
  | ret a, n, s => (some a, n, s)
  | call effect next, n, s => if f n then (none, n + 1, s) else run f (next s) (n + 1) (effect s)
  | assign effect next, n, s => run f next n (effect s)

/-- The first fault is at call `k`. -/
def FirstFault (f : ℕ → Bool) (k : ℕ) : Prop := f k = true ∧ ∀ i < k, f i = false

instance (f : ℕ → Bool) (k : ℕ) : Decidable (FirstFault f k) :=
  inferInstanceAs (Decidable (_ ∧ _))

/-- There is one first fault. -/
theorem FirstFault.unique {f : ℕ → Bool} {k k' : ℕ} (h : FirstFault f k) (h' : FirstFault f k') :
    k = k' := by
  rcases lt_trichotomy k k' with hlt | heq | hlt
  · exact absurd h.1 (by simp [h'.2 k hlt])
  · exact heq
  · exact absurd h'.1 (by simp [h.2 k' hlt])

/-- Among the first `m` calls there is no fault, or a first one. -/
theorem quiet_or_firstFault (f : ℕ → Bool) (m : ℕ) :
    (∀ i < m, f i = false) ∨ ∃ k < m, FirstFault f k := by
  by_cases h : ∃ k, f k = true
  · have hmin : ∀ i < Nat.find h, f i = false := fun i hi => by simpa using Nat.find_min h hi
    by_cases hlt : Nat.find h < m
    · exact .inr ⟨Nat.find h, hlt, Nat.find_spec h, hmin⟩
    · exact .inl fun i hi => hmin i (by omega)
  · exact .inl fun i _ => by simpa using fun hi => h ⟨i, hi⟩

/-- **Without a fault among its calls a script ends undisturbed.** -/
theorem run_of_quiet {f : ℕ → Bool} (b : Script σ α) (n : ℕ) (s : σ)
    (h : ∀ i < b.calls s, f (n + i) = false) :
    b.run f n s = (some (b.value s), n + b.calls s, b.final s) := by
  induction b generalizing n s with
  | ret a => rfl
  | call effect next ih =>
    have h₀ : f n = false := h 0 (by simp [calls])
    have hrest : ∀ i < (next s).calls (effect s), f (n + 1 + i) = false := fun i hi => by
      rw [show n + 1 + i = n + (i + 1) by omega]
      exact h (i + 1) (by simpa [calls] using hi)
    rw [run, h₀, if_neg (by simp), ih s _ _ hrest, calls, value, final]
    congr 2
    omega
  | assign effect next ih => exact ih n (effect s) h

/-- **A fault among its calls stops a script in the state of that call.** -/
theorem run_of_fault {f : ℕ → Bool} (b : Script σ α) (n : ℕ) (s : σ) {k : ℕ} (hk : k < b.calls s)
    (hf : f (n + k) = true) (hq : ∀ i < k, f (n + i) = false) :
    b.run f n s = (none, n + k + 1, b.stateAt s k) := by
  induction b generalizing n s k with
  | ret a => simp [calls] at hk
  | call effect next ih =>
    cases k with
    | zero =>
      rw [Nat.add_zero] at hf ⊢
      rw [run, if_pos hf, stateAt]
    | succ k =>
      have hrest : ∀ i < k, f (n + 1 + i) = false := fun i hi => by
        rw [show n + 1 + i = n + (i + 1) by omega]
        exact hq (i + 1) (by omega)
      rw [run, show f n = false from hq 0 (by omega), if_neg (by simp),
        ih s (n + 1) (effect s) (by simpa [calls] using hk)
          (by rwa [show n + 1 + k = n + (k + 1) by omega]) hrest, stateAt]
      congr 2
      omega
  | assign effect next ih => exact ih n (effect s) hk hf hq

/-! ### Sequences -/

/-- `pure` is `ret`. -/
@[simp] theorem pure_eq (a : α) : (pure a : Script σ α) = ret a := rfl

/-- `>>=` is `bind`. -/
@[simp] theorem bind_eq (b : Script σ α) (g : α → Script σ β) : b >>= g = b.bind g := rfl

/-- `ret` makes no call, has its value and leaves the state. -/
@[simp] theorem calls_ret (a : α) (s : σ) : (ret a : Script σ α).calls s = 0 := rfl
@[simp] theorem value_ret (a : α) (s : σ) : (ret a : Script σ α).value s = a := rfl
@[simp] theorem final_ret (a : α) (s : σ) : (ret a : Script σ α).final s = s := rfl

/-- The calls of the two parts add up. -/
@[simp] theorem calls_bind (b : Script σ α) (g : α → Script σ β) (s : σ) :
    (b.bind g).calls s = b.calls s + (g (b.value s)).calls (b.final s) := by
  induction b generalizing s with
  | ret a => simp [bind]
  | call effect next ih => simp [bind, calls, value, final, ih]; omega
  | assign effect next ih => exact ih (effect s)

/-- The value is that of the second part. -/
@[simp] theorem value_bind (b : Script σ α) (g : α → Script σ β) (s : σ) :
    (b.bind g).value s = (g (b.value s)).value (b.final s) := by
  induction b generalizing s with
  | ret a => rfl
  | call effect next ih => exact ih s (effect s)
  | assign effect next ih => exact ih (effect s)

/-- After its last call a script is at its end. -/
theorem stateAt_of_calls_le (b : Script σ α) (s : σ) {k : ℕ} (hk : b.calls s ≤ k) :
    b.stateAt s k = b.final s := by
  induction b generalizing s k with
  | ret a => rfl
  | call effect next ih =>
    cases k with
    | zero => simp [calls] at hk
    | succ k => exact ih s (effect s) (by simpa [calls] using hk)
  | assign effect next ih => exact ih (effect s) hk

/-- A fault in the first part hits it there. -/
theorem stateAt_bind_of_lt (b : Script σ α) (g : α → Script σ β) (s : σ) {k : ℕ}
    (hk : k < b.calls s) : (b.bind g).stateAt s k = b.stateAt s k := by
  induction b generalizing s k with
  | ret a => simp [calls] at hk
  | call effect next ih =>
    cases k with
    | zero => rfl
    | succ k => exact ih s (effect s) (by simpa [calls] using hk)
  | assign effect next ih => exact ih (effect s) hk

/-- A fault in the second part hits it there. -/
theorem stateAt_bind_add (b : Script σ α) (g : α → Script σ β) (s : σ) (k : ℕ) :
    (b.bind g).stateAt s (b.calls s + k) = (g (b.value s)).stateAt (b.final s) k := by
  induction b generalizing s with
  | ret a => simp [bind]
  | call effect next ih =>
    rw [calls, show (next s).calls (effect s) + 1 + k = (next s).calls (effect s) + k + 1 by omega]
    exact ih s (effect s)
  | assign effect next ih => exact ih (effect s)

/-- The calls of the first script come first. -/
theorem stateAt_bind (b : Script σ α) (g : α → Script σ β) (s : σ) (k : ℕ) :
    (b.bind g).stateAt s k =
      if k < b.calls s then b.stateAt s k
      else (g (b.value s)).stateAt (b.final s) (k - b.calls s) := by
  split_ifs with hk
  · exact stateAt_bind_of_lt b g s hk
  · obtain ⟨j, rfl⟩ := Nat.exists_eq_add_of_le (Nat.le_of_not_lt hk)
    rw [stateAt_bind_add, Nat.add_sub_cancel_left]

/-! ### Properties of every moment of a run -/

/-- The property holds in the state of every call and at the end. -/
def Along (P : σ → Prop) (b : Script σ α) (s : σ) : Prop :=
  ∀ k, P (b.stateAt s k)

/-- What holds along a script holds at its end. -/
theorem Along.final {P : σ → Prop} {b : Script σ α} {s : σ} (h : b.Along P s) : P (b.final s) :=
  b.stateAt_of_calls_le s le_rfl ▸ h (b.calls s)

/-- Nothing happens along `ret`. -/
theorem along_ret {P : σ → Prop} {a : α} {s : σ} (h : P s) : (ret a : Script σ α).Along P s :=
  fun _ => h

/-- What holds along both parts holds along the whole. -/
theorem Along.bind {P : σ → Prop} {b : Script σ α} {g : α → Script σ β} {s : σ}
    (hb : b.Along P s) (hg : (g (b.value s)).Along P (b.final s)) : (b.bind g).Along P s := by
  intro k
  rw [stateAt_bind]
  split_ifs
  · exact hb k
  · exact hg _

/-- A script of calls that only read: it leaves every state as it is. -/
def ReadOnly (b : Script σ α) : Prop := ∀ s, b.Along (· = s) s

/-- A script that only reads ends where it starts. -/
theorem ReadOnly.final {b : Script σ α} (h : b.ReadOnly) (s : σ) : b.final s = s := (h s).final

/-- What holds before it holds along it. -/
theorem ReadOnly.along {P : σ → Prop} {b : Script σ α} (hb : b.ReadOnly) {s : σ} (h : P s) :
    b.Along P s := fun k => (hb s k).symm ▸ h

/-- `ret` only reads. -/
theorem readOnly_ret (a : α) : (ret a : Script σ α).ReadOnly := fun _ => along_ret rfl

/-- So does a script of two such parts. -/
theorem ReadOnly.bind {b : Script σ α} {g : α → Script σ β} (hb : b.ReadOnly)
    (hg : ∀ a, (g a).ReadOnly) : (b.bind g).ReadOnly := fun s =>
  (hb s).bind ((hb.final s).symm ▸ hg _ s)

/-- A single call that answers from the state it finds. -/
def prim (effect : σ → σ) (answer : σ → α) : Script σ α := call effect fun s => ret (answer s)

/-- A call is one step: what holds before and after it holds along it. -/
theorem along_prim {P : σ → Prop} {effect : σ → σ} {answer : σ → α} {s : σ} (h : P s)
    (h' : P (effect s)) : (prim effect answer).Along P s := by
  rintro (_ | k)
  · exact h
  · exact h'

/-- A call that only reads. -/
def ask (answer : σ → α) : Script σ α := prim id answer

/-- A reading script in front leaves the state to the next one. -/
theorem ReadOnly.stateAt_bind {b : Script σ α} (hb : b.ReadOnly) (g : α → Script σ β) (s : σ)
    (k : ℕ) :
    (b.bind g).stateAt s k =
      if k < b.calls s then s else (g (b.value s)).stateAt s (k - b.calls s) := by
  rw [Script.stateAt_bind, hb.final]
  split_ifs
  · exact hb s k
  · rfl

/-- A call in front: its state, then those of the next script. -/
theorem stateAt_prim_bind (effect : σ → σ) (answer : σ → α) (g : α → Script σ β) (s : σ) (k : ℕ) :
    ((prim effect answer).bind g).stateAt s k =
      if k = 0 then s else (g (answer s)).stateAt (effect s) (k - 1) := by
  cases k <;> rfl

/-- A question only reads. -/
theorem readOnly_ask (answer : σ → α) : (ask answer : Script σ α).ReadOnly := by
  rintro s (_ | k) <;> rfl

/-- A single call answers from the state it finds, and has its effect. -/
@[simp] theorem calls_prim (e : σ → σ) (g : σ → α) (s : σ) : (prim e g).calls s = 1 := rfl
@[simp] theorem value_prim (e : σ → σ) (g : σ → α) (s : σ) : (prim e g).value s = g s := rfl
@[simp] theorem final_prim (e : σ → σ) (g : σ → α) (s : σ) : (prim e g).final s = e s := rfl

end Script
