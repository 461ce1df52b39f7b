/-
# Labelled transition systems

Systems whose steps are computed: `next s l` is the state after the step `l`,
`none` where `l` is not enabled.  `Reachable ok` are the states of the runs whose
steps all meet the condition `ok`, `run` executes a list of labels, and a
`Simulation` carries reachability over to a more abstract system, a step at a
time, where a step may leave the abstract state as it is.  Where the steps of a kind
cost work, they come to a `Standstill`.
-/

import Mathlib.Data.Nat.Notation
import Mathlib.Data.Option.Basic
import Mathlib.Logic.Basic

/-- Initial states and computed, labelled steps. -/
structure TransitionSystem (σ ℓ : Type*) where
  init : σ → Prop
  next : σ → ℓ → Option σ

namespace TransitionSystem

variable {σ τ ℓ κ : Type*} (M : TransitionSystem σ ℓ)

/-- The states reached by steps that all meet `ok`. -/
inductive Reachable (ok : σ → ℓ → Prop) : σ → Prop where
  | init {s : σ} : M.init s → Reachable ok s
  | step {s s' : σ} {l : ℓ} : Reachable ok s → ok s l → M.next s l = some s' → Reachable ok s'

/-- The condition that every step meets. -/
def anyStep : σ → ℓ → Prop := fun _ _ => True

/-- The state after a list of steps. -/
def run (s : σ) : List ℓ → Option σ
  | [] => some s
  | l :: ls => match M.next s l with
    | none => none
    | some s' => run s' ls

/-- The state after a list of steps that all pass a test. -/
def runIf (test : σ → ℓ → Bool) (s : σ) : List ℓ → Option σ
  | [] => some s
  | l :: ls => match M.next s l with
    | none => none
    | some s' => if test s l then runIf test s' ls else none

variable {M}

theorem Reachable.mono {ok ok' : σ → ℓ → Prop} (h : ∀ s l, ok s l → ok' s l) {s : σ}
    (hs : M.Reachable ok s) : M.Reachable ok' s := by
  induction hs with
  | init h₀ => exact .init h₀
  | step _ hok hn ih => exact .step ih (h _ _ hok) hn

theorem Reachable.any {ok : σ → ℓ → Prop} {s : σ} (hs : M.Reachable ok s) :
    M.Reachable anyStep s :=
  hs.mono fun _ _ _ => trivial

/-- An inductive invariant holds in every state reached. -/
theorem Reachable.invariant {ok : σ → ℓ → Prop} {I : σ → Prop} (hinit : ∀ s, M.init s → I s)
    (hstep : ∀ s s' l, I s → ok s l → M.next s l = some s' → I s') {s : σ}
    (hs : M.Reachable ok s) : I s := by
  induction hs with
  | init h => exact hinit _ h
  | step _ hok hn ih => exact hstep _ _ _ ih hok hn

/-- The steps of an invariant may use what is known of every state reached. -/
theorem Reachable.invariant_with {ok : σ → ℓ → Prop} {I J : σ → Prop}
    (hJ : ∀ s, M.Reachable ok s → J s) (hinit : ∀ s, M.init s → I s)
    (hstep : ∀ s s' l, J s → I s → ok s l → M.next s l = some s' → I s') {s : σ}
    (hs : M.Reachable ok s) : I s := by
  induction hs with
  | init h => exact hinit _ h
  | step hr hok hn ih => exact hstep _ _ _ (hJ _ hr) ih hok hn

/-- What a run whose labels all meet the condition reaches is reachable. -/
theorem Reachable.of_run_of {ok : σ → ℓ → Prop} {s s' : σ} (hs : M.Reachable ok s) (ls : List ℓ)
    (hok : ∀ l ∈ ls, ∀ s, ok s l) (h : M.run s ls = some s') : M.Reachable ok s' := by
  induction ls generalizing s with
  | nil => exact Option.some.inj h ▸ hs
  | cons l ls ih =>
    rw [run] at h
    split at h
    · cases h
    · rename_i t ht
      exact ih (.step hs (hok l List.mem_cons_self s) ht) (fun l' hl' => hok l' (.tail l hl')) h

/-- What a run of enabled steps reaches is reachable. -/
theorem Reachable.of_run {s s' : σ} (hs : M.Reachable anyStep s) (ls : List ℓ)
    (h : M.run s ls = some s') : M.Reachable anyStep s' :=
  hs.of_run_of ls (fun _ _ _ => trivial) h

/-- What every step that meets the condition keeps, a run of them keeps. -/
theorem invariant_run_of {P : σ → Prop} {ok : ℓ → Prop}
    (hstep : ∀ s s' l, P s → ok l → M.next s l = some s' → P s') {s s' : σ} {ls : List ℓ}
    (hs : P s) (hok : ∀ l ∈ ls, ok l) (hrun : M.run s ls = some s') : P s' := by
  induction ls generalizing s with
  | nil => exact Option.some.inj hrun ▸ hs
  | cons l ls ih =>
    rw [run] at hrun
    split at hrun
    · cases hrun
    · rename_i t ht
      have hhead := hok l List.mem_cons_self
      exact ih (hstep s t l hs hhead ht) (fun l' hl' => hok l' (.tail l hl')) hrun

/-- What every step keeps, a run keeps. -/
theorem invariant_run {P : σ → Prop} (hstep : ∀ s s' l, P s → M.next s l = some s' → P s')
    {s s' : σ} {ls : List ℓ} (hs : P s) (hrun : M.run s ls = some s') : P s' :=
  invariant_run_of (fun s s' l h _ hn => hstep s s' l h hn) hs (fun _ _ => trivial) hrun

/-- What comes to hold in a run comes to hold at one of its steps. -/
theorem exists_step_of_run {P : σ → Prop} {s s' : σ} {ls : List ℓ} (hs : ¬ P s) (hs' : P s')
    (hrun : M.run s ls = some s') : ∃ pre l post t t', ls = pre ++ l :: post ∧
      M.run s pre = some t ∧ M.next t l = some t' ∧ ¬ P t ∧ P t' := by
  induction ls generalizing s with
  | nil => exact absurd (Option.some.inj hrun ▸ hs') hs
  | cons l ls ih =>
    rw [run] at hrun
    split at hrun
    · cases hrun
    · rename_i t ht
      by_cases hP : P t
      · exact ⟨[], l, ls, s, t, rfl, rfl, ht, hs, hP⟩
      · obtain ⟨pre, l', post, u, u', rfl, hpre, hu, hn, hp⟩ := ih hP hrun
        exact ⟨l :: pre, l', post, u, u', rfl, by rw [run, ht]; exact hpre, hu, hn, hp⟩

/-- No step that meets the condition is enabled. -/
def Standstill (M : TransitionSystem σ ℓ) (ok : ℓ → Prop) (s : σ) : Prop :=
  ∀ l, ok l → M.next s l = none

/-- Where the steps that meet the condition cost work, a run of them is no longer than
the work at its start. -/
theorem length_le_of_run {P : σ → Prop} {ok : ℓ → Prop} {work : σ → ℕ}
    (hP : ∀ s s' l, P s → M.next s l = some s' → P s')
    (hwork : ∀ s s' l, P s → ok l → M.next s l = some s' → work s' < work s)
    {s s' : σ} {ls : List ℓ} (hs : P s) (hok : ∀ l ∈ ls, ok l) (hrun : M.run s ls = some s') :
    ls.length + work s' ≤ work s := by
  induction ls generalizing s with
  | nil =>
    cases hrun
    simp
  | cons l ls ih =>
    rw [run] at hrun
    split at hrun
    · cases hrun
    · rename_i t ht
      have hlt := hwork s t l hs (hok l List.mem_cons_self) ht
      have hle := ih (hP s t l hs ht) (fun l' hl' => hok l' (.tail l hl')) hrun
      rw [List.length_cons]
      omega

/-- A run of them comes to a standstill. -/
theorem exists_standstill {P : σ → Prop} {ok : ℓ → Prop} {work : σ → ℕ}
    (hP : ∀ s s' l, P s → M.next s l = some s' → P s')
    (hwork : ∀ s s' l, P s → ok l → M.next s l = some s' → work s' < work s) {s : σ} (hs : P s) :
    ∃ ls s', (∀ l ∈ ls, ok l) ∧ M.run s ls = some s' ∧ M.Standstill ok s' := by
  induction hn : work s using Nat.strongRecOn generalizing s with
  | ind n ih =>
    by_cases hstill : M.Standstill ok s
    · exact ⟨[], s, by simp, rfl, hstill⟩
    · simp only [Standstill, not_forall] at hstill
      obtain ⟨l, hl, hnext⟩ := hstill
      obtain ⟨t, ht⟩ := Option.ne_none_iff_exists'.1 hnext
      obtain ⟨ls, s', hok, hrun, hs'⟩ :=
        ih (work t) (hn ▸ hwork s t l hs hl ht) (hP s t l hs ht) rfl
      refine ⟨l :: ls, s', ?_, by rw [run, ht]; exact hrun, hs'⟩
      intro l' hl'
      rcases List.mem_cons.1 hl' with rfl | hl'
      · exact hl
      · exact hok l' hl'

/-- A run whose labels all meet the condition reaches a state in which `p` holds,
when evaluating it says so. -/
theorem Reachable.exists_of_run {ok : σ → ℓ → Prop} {s : σ} (hs : M.Reachable ok s) (ls : List ℓ)
    (p : σ → Bool) (hok : ∀ l ∈ ls, ∀ s, ok s l) (h : (M.run s ls).any p = true) :
    ∃ s', M.Reachable ok s' ∧ p s' = true := by
  rcases hrun : M.run s ls with _ | s'
  · simp [hrun] at h
  · exact ⟨s', hs.of_run_of ls hok hrun, by simpa [hrun] using h⟩

/-- What a run whose steps pass a test for the condition reaches is reachable. -/
theorem Reachable.of_runIf {ok : σ → ℓ → Prop} {s s' : σ} (hs : M.Reachable ok s)
    (test : σ → ℓ → Bool) (htest : ∀ s l, M.Reachable ok s → test s l = true → ok s l)
    (ls : List ℓ) (h : M.runIf test s ls = some s') : M.Reachable ok s' := by
  induction ls generalizing s with
  | nil => exact Option.some.inj h ▸ hs
  | cons l ls ih =>
    rw [runIf] at h
    split at h
    · cases h
    · rename_i t ht
      obtain ⟨hl, h⟩ := Option.ite_none_right_eq_some.1 h
      exact ih (.step hs (htest s l hs hl) ht) h

/-- A run whose steps pass a test for the condition reaches a state in which `p`
holds, when evaluating it says so. -/
theorem Reachable.exists_of_runIf {ok : σ → ℓ → Prop} {s : σ} (hs : M.Reachable ok s)
    (test : σ → ℓ → Bool) (htest : ∀ s l, M.Reachable ok s → test s l = true → ok s l)
    (ls : List ℓ) (p : σ → Bool) (h : (M.runIf test s ls).any p = true) :
    ∃ s', M.Reachable ok s' ∧ p s' = true := by
  rcases hrun : M.runIf test s ls with _ | s'
  · simp [hrun] at h
  · exact ⟨s', hs.of_runIf test htest ls hrun, by simpa [hrun] using h⟩

/-- Every step of `M` that meets `ok` is a step of `N` that meets `ok'`, or
leaves the related state of `N` as it is.  What is known of the reachable states
of `N` may be used. -/
structure Simulation (M : TransitionSystem σ ℓ) (ok : σ → ℓ → Prop) (N : TransitionSystem τ κ)
    (ok' : τ → κ → Prop) (R : σ → τ → Prop) : Prop where
  init : ∀ s, M.init s → ∃ t, N.init t ∧ R s t
  step : ∀ s s' l t, N.Reachable ok' t → R s t → ok s l → M.next s l = some s' →
    R s' t ∨ ∃ k t', ok' t k ∧ N.next t k = some t' ∧ R s' t'

/-- Every reachable state is related to a reachable one. -/
theorem Simulation.reachable {N : TransitionSystem τ κ} {ok : σ → ℓ → Prop} {ok' : τ → κ → Prop}
    {R : σ → τ → Prop} (h : Simulation M ok N ok' R) {s : σ} (hs : M.Reachable ok s) :
    ∃ t, N.Reachable ok' t ∧ R s t := by
  induction hs with
  | init h₀ =>
    obtain ⟨t, ht, hR⟩ := h.init _ h₀
    exact ⟨t, .init ht, hR⟩
  | step _ hok hn ih =>
    obtain ⟨t, ht, hR⟩ := ih
    rcases h.step _ _ _ _ ht hR hok hn with hR' | ⟨k, t', hok', hn', hR'⟩
    · exact ⟨t, ht, hR'⟩
    · exact ⟨t', .step ht hok' hn', hR'⟩

end TransitionSystem
