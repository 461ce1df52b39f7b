/-
# Who holds what

Threads `τ` hold things `ι`, each with a value `α` that says how far the holder
is.  What is recorded about the things (`held`) and what the threads go by
(`claim`) agree when each claim is recorded and each record is claimed.  So a
thing has one holder, and a thread holds one thing at most (`Agrees.unique`).
-/

import Mathlib.Logic.Function.Basic

variable {τ ι α : Type*}

/-- What `f` reads off, after one change. -/
theorem map_update {β : Type*} [DecidableEq ι] (f : α → β) (g : ι → α) (i : ι) (a : α) :
    (fun j => f (Function.update g i a j)) = Function.update (fun j => f (g j)) i (f a) :=
  funext fun j => Function.apply_update (fun _ => f) g i a j

/-- What `f` reads off, after a change that it does not see. -/
theorem map_update_eq {β : Type*} [DecidableEq ι] (f : α → β) {g : ι → α} {i : ι} {a : α}
    (hf : f a = f (g i)) : (fun j => f (Function.update g i a j)) = fun j => f (g j) := by
  rw [map_update, hf, Function.update_eq_self]

/-- What the threads claim is what is held. -/
def Agrees (held : ι → Option (τ × α)) (claim : τ → Option (ι × α)) : Prop :=
  ∀ t i a, claim t = some (i, a) ↔ held i = some (t, a)

namespace Agrees

variable {held : ι → Option (τ × α)} {claim : τ → Option (ι × α)}

theorem none : Agrees (fun _ : ι => Option.none) (fun _ : τ => Option.none (α := ι × α)) :=
  fun _ _ _ => ⟨nofun, nofun⟩

/-- A thing has one holder. -/
theorem unique (h : Agrees held claim) {t t' : τ} {i : ι} {a a' : α}
    (ht : claim t = some (i, a)) (ht' : claim t' = some (i, a')) : t = t' ∧ a = a' := by
  have := ((h t i a).1 ht).symm.trans ((h t' i a').1 ht')
  simpa using this

variable [DecidableEq τ] [DecidableEq ι]

/-- **A thread takes, changes or gives up what nobody else holds.** -/
theorem set (h : Agrees held claim) {t : τ} {i : ι} (hheld : ∀ t' a, held i = some (t', a) → t' = t)
    (hclaim : ∀ i' a, claim t = some (i', a) → i' = i) (x : Option α) :
    Agrees (Function.update held i (x.map (t, ·))) (Function.update claim t (x.map (i, ·))) := by
  intro t' i' a
  rcases eq_or_ne t' t with rfl | ht <;> rcases eq_or_ne i' i with rfl | hi
  · cases x <;> simp
  · rw [Function.update_self, Function.update_of_ne hi]
    have hne : held i' ≠ some (t', a) := fun hh => hi (hclaim i' a ((h t' i' a).2 hh))
    cases x <;> simp [hne, hi.symm]
  · rw [Function.update_self, Function.update_of_ne ht]
    have hne : claim t' ≠ some (i', a) := fun hc => ht (hheld t' a ((h t' i' a).1 hc))
    cases x <;> simp [hne, ht.symm]
  · rw [Function.update_of_ne ht, Function.update_of_ne hi]
    exact h t' i' a

/-- A thread that holds nothing takes what nobody holds. -/
theorem take (h : Agrees held claim) {t : τ} {i : ι} (hheld : held i = Option.none)
    (hclaim : claim t = Option.none) (a : α) :
    Agrees (Function.update held i (some (t, a))) (Function.update claim t (some (i, a))) :=
  h.set (fun _ _ ht => by rw [hheld] at ht; cases ht) (fun _ _ hi => by rw [hclaim] at hi; cases hi)
    (some a)

/-- The holder gets on. -/
theorem move (h : Agrees held claim) {t : τ} {i : ι} {a : α} (hclaim : claim t = some (i, a))
    (a' : α) :
    Agrees (Function.update held i (some (t, a'))) (Function.update claim t (some (i, a'))) := by
  refine h.set (fun t' b ht => ?_) (fun i' b hi => ?_) (some a')
  · rw [(h t i a).1 hclaim] at ht
    cases ht
    rfl
  · rw [hclaim] at hi
    cases hi
    rfl

/-- The holder gives up. -/
theorem drop (h : Agrees held claim) {t : τ} {i : ι} {a : α} (hclaim : claim t = some (i, a)) :
    Agrees (Function.update held i Option.none) (Function.update claim t Option.none) := by
  refine h.set (fun t' b ht => ?_) (fun i' b hi => ?_) Option.none
  · rw [(h t i a).1 hclaim] at ht
    cases ht
    rfl
  · rw [hclaim] at hi
    cases hi
    rfl

end Agrees
