/-
# Where `~EpollWorker` stands still

Once `~EpollWorker` has been called, nobody accepts for the worker, and its epoll
thread ends when `epoll_wait` reports no event.  Where neither the threads nor the
destructor can go on, the threads are at rest, and the destructor has returned or hangs
(`stands_iff`): it sleeps on a `fd_cond`, or it waits for an `fd_mutex` that a
deadlocked active thread holds.
-/

import WeakAyas.Dispatch.Standstill
import WeakAyas.Dispatch.Steady
import WeakAyas.Dispatch.Teardown

namespace WeakAyas
namespace Dispatch

open TransitionSystem

/-- What neither the threads nor the destructor bring about once it has been called.
`running` is off, so with no event reported the epoll thread ends. -/
def TeardownStep.external : TeardownStep → Bool
  | thread .loop .stop => false
  | thread _ ch => ch.external
  | spurious => true
  | _ => false

/-- A step of a thread that needs nothing from outside. -/
theorem TeardownStep.external_thread {t : Tid} {ch : Choice} (h : ch.external = false) :
    (thread t ch).external = false := by
  cases t with
  | loop => cases ch <;> first | rfl | exact h
  | _ => exact h

namespace Teardown

/-- Neither a thread nor the destructor can go on by itself. -/
abbrev Standstill (n : ℕ) (s : Teardown) : Prop :=
  (teardown n).Standstill (fun l => l.external = false) s

/-- The destructor sleeps, or it waits for the `fd_mutex` of a connection from which a
deadlocked thread has read a chunk. -/
def Hangs (s : Teardown) : Prop :=
  ∃ fd c visited, s.destructor = .asleep fd c visited ∨
    (s.destructor = .lock fd c visited ∨ s.destructor = .relock fd c visited) ∧
      ∃ d, s.threads.HasInHand c d

/-- The threads of a worker that is at its end: nothing is left for the pool, and every
thread rests or has deadlocked. -/
structure AtRest (s : Teardown) : Prop where
  loop : s.threads.loop = .ended
  tasks : s.threads.tasks = []
  returning : ∀ i, s.returning i = none
  rests : ∀ t, s.threads.Rests t ∨ s.threads.SelfLocks t

variable {n : ℕ} {s s' : Teardown} {P : Protocol}

/-! ### What the threads keep -/

/-- Each move keeps the holder of `fd_map`. -/
theorem Move.mapHeld {l : TeardownStep} (h : MapHeld s.threads) (hm : Move n s l s') :
    MapHeld s'.threads := by
  cases hm with
  | thread _ hnext => exact h.step (mapStep hnext)
  | notifyPool hpc =>
    exact h.step (.get (State.inMap_setPool ..) (congrArg PoolPc.inMap hpc).symm ⟨rfl, rfl⟩)
  | notifyActive hi =>
    exact h.step (.get (State.inMap_setActive hi _) (by simp [State.inMap, hi, ActivePc.inMap])
      ⟨rfl, rfl⟩)
  | _ => exact h

/-- Whoever is past the lock of `fd_map` holds it, also in a teardown. -/
theorem mapHeld {ok : Teardown → TeardownStep → Prop} (hs : (teardown n).Reachable ok s) :
    MapHeld s.threads :=
  hs.invariant (I := fun s => MapHeld s.threads) (fun _ h => h ▸ mapHeld_start)
    fun _ _ _ h _ hn => (move_of_next hn).mapHeld h

/-- No handler ends the process here. -/
theorem not_terminated {ok : Teardown → TeardownStep → Prop} (hs : (teardown n).Reachable ok s) :
    s.threads.terminated = false := by
  refine hs.invariant_with (I := fun s => s.threads.terminated = false)
    (fun s hs => exists_refines hs) (fun s h => ?_) fun s s' l ⟨P, h, _⟩ hterm _ hn => ?_
  · obtain rfl : s = .start := h
    rfl
  · cases move_of_next hn with
    | thread _ hnext => exact (mapStep hnext).not_terminated h hterm
    | _ => exact hterm

/-- Nobody accepts any more. -/
theorem accepts {ok : Teardown → TeardownStep → Prop} (hs : (teardown n).Reachable ok s) :
    s.destructor ≠ .alive → s.threads.acceptor = .accept := by
  refine hs.invariant (I := fun s => s.destructor ≠ .alive → s.threads.acceptor = .accept)
    (fun s h hcalled => ?_) fun s s' l h _ hn hcalled => ?_
  · obtain rfl : s = .start := h
    rfl
  · cases move_of_next hn with
    | @thread t ch threads hadmits hnext =>
      have ht : t ≠ .acceptor := fun ht => hcalled (hadmits.1 ht)
      exact (next_steady hnext ht).acceptor.trans (h hcalled)
    | stop _ hacceptor => exact hacceptor
    | deleteWrapper => exact h hcalled
    | lock hpc => exact h (by rcases hpc with hpc | hpc <;> simp [hpc])
    | notifyPool _ hpc | notifyActive _ hpc | spurious hpc | visit hpc | join hpc | done hpc
    | wait hpc | pass hpc | unlock hpc | closeEpoll hpc => exact h (by simp [hpc])

/-! ### Who stands still -/

/-- What the destructor sleeps on it would be woken from. -/
theorem isSome_wake {c : ConnId} (h : s.destructor.sleepsOn = some c) : ∃ s₁, s.wake = some s₁ := by
  unfold wake
  cases hpc : s.destructor with rw [hpc] at h
  | asleep fd c visited => exact ⟨_, rfl⟩
  | _ => cases h

/-- A thread that notifies can go past it. -/
theorem isSome_pastNotify {σ : State} {t : Tid} {c : ConnId} (h : σ.notifies t = some c) :
    ∃ σ', σ.pastNotify t = some σ' := by
  cases t with
  | acceptor | loop => cases h
  | pool i =>
    simp only [State.notifies, State.pastNotify] at h ⊢
    cases hpc : σ.pool i with rw [hpc] at h
    | notify fd c => exact ⟨_, rfl⟩
    | _ => cases h
  | active i =>
    simp only [State.notifies, State.pastNotify] at h ⊢
    split at h
    · exact ⟨_, rfl⟩
    · cases h

namespace Standstill

variable (hstill : Standstill n s) (hterm : s.threads.terminated = false)

include hstill hterm

/-- The destructor has no step. -/
theorem destructorNext : s.destructorNext = none := by
  have hnext := hstill .destructor rfl
  change s.next n .destructor = none at hnext
  rwa [next, hterm, if_neg Bool.false_ne_true] at hnext

/-- The destructor holds no mutex, or it would go on. -/
theorem holds : s.destructor.holds = none := by
  have hnext := hstill.destructorNext hterm
  unfold Teardown.destructorNext at hnext
  cases hpc : s.destructor with rw [hpc] at hnext
  | check | unlock => cases hnext
  | _ => rfl

/-- No thread is about to return. -/
theorem returning (i : ℕ) : s.returning i = none := by
  have hnext := hstill (.deleteWrapper i) rfl
  change s.next n (.deleteWrapper i) = none at hnext
  simpa [next, hterm] using hnext

/-- **The destructor keeps no thread from going on**: a notification that is not for a
thread would wake it. -/
theorem not_canGo {t : Tid} (ht : t ≠ .acceptor) : ¬ CanGo (s.threads.next n t) := by
  rintro ⟨ch, hch, hsome⟩
  have hthread := hstill (.thread t ch) (TeardownStep.external_thread hch)
  change s.next n (.thread t ch) = none at hthread
  simp only [next, hterm, if_neg Bool.false_ne_true] at hthread
  have hwake : ch = .wake none →
      s.threads.notifies t = none ∨ s.threads.notifies t ≠ s.destructor.sleepsOn := by
    rintro -
    by_contra! hsleeps
    obtain ⟨hnotifies, hsleeps⟩ := hsleeps
    obtain ⟨c, hc⟩ := Option.ne_none_iff_exists'.1 hnotifies
    obtain ⟨s₁, hs₁⟩ := isSome_wake (hsleeps.symm.trans hc)
    obtain ⟨σ, hσ⟩ := isSome_pastNotify hc
    have hnotify := hstill (.notifyDestructor t) rfl
    change s.next n (.notifyDestructor t) = none at hnotify
    simp [next, hterm, hnotifies, hsleeps.symm, hs₁, hσ] at hnotify
  have hadmits : s.Admits t ch := by
    refine ⟨fun h => absurd h ht, ?_, hwake, ?_⟩
    · rw [hstill.holds hterm]
      exact (eq_or_ne _ _)
    · cases t with
      | pool i => exact hstill.returning hterm i
      | _ => rfl
  rw [if_pos hadmits, Option.map_eq_none_iff] at hthread
  rw [hthread] at hsome
  cases hsome

end Standstill

/-- The deadlocked thread holds the mutex of the connection it has read from. -/
theorem mutex_of_hasInHand {σ : State} (h : Refines σ.obs P) {c : ConnId} {d : Bytes}
    (hd : σ.HasInHand c d) : (σ.info c).fdMutex ≠ none := by
  obtain ⟨i, fd, c₁, c'', hi⟩ := hd
  rw [show (σ.info c).fdMutex = some (.active i) from h.mutex_of_view (view_active hi) rfl]
  exact Option.some_ne_none _

/-- A mutex that is held at rest is held by a thread that has deadlocked. -/
theorem hasInHand_of_mutex {σ : State} (h : Refines σ.obs P)
    (hrests : ∀ t, σ.Rests t ∨ σ.SelfLocks t) {c : ConnId} (hc : (σ.info c).fdMutex ≠ none) :
    ∃ d, σ.HasInHand c d := by
  obtain ⟨t, ht⟩ := Option.ne_none_iff_exists'.1 hc
  have hview := h.view_of_mutex (t := t) ht
  have hlocks := (hrests t).resolve_left (not_rests_of_mutex hview)
  obtain ⟨i, fd, c₁, c', d, c'', rfl, hi⟩ := (selfLocks_iff_of_refines h t).1 hlocks
  rw [view_active hi] at hview
  cases hview
  exact ⟨d, i, fd, c₁, c'', hi⟩

/-- The destructor stands still when it has returned, or hangs. -/
theorem Standstill.destructor (hstill : Standstill n s) (hterm : s.threads.terminated = false)
    (h : Refines s.threads.obs P) (hcalled : s.destructor ≠ .alive) (hrest : s.AtRest) :
    s.destructor = .returned ∨ s.Hangs := by
  have hnext := hstill.destructorNext hterm
  -- at a lock of `fd_mutex`, the mutex is held
  have hlock : ∀ fd c visited, s.destructor = .lock fd c visited ∨
      s.destructor = .relock fd c visited → s.Hangs := fun fd c visited hpc => by
    refine ⟨fd, c, visited, .inr ⟨hpc, hasInHand_of_mutex h hrest.rests fun hfree => ?_⟩⟩
    rcases hpc with hpc | hpc <;> simp [Teardown.destructorNext, hpc, hfree] at hnext
  cases hpc : s.destructor with
  | alive => exact absurd hpc hcalled
  | join => simp [Teardown.destructorNext, hpc, hrest.loop] at hnext
  | next visited =>
    simp only [Teardown.destructorNext, hpc, ite_eq_right_iff, reduceCtorEq, imp_false] at hnext
    -- an entry is still to be visited
    push Not at hnext
    obtain ⟨fd, -, hentry, hfd⟩ := hnext
    obtain ⟨c, hc⟩ := Option.ne_none_iff_exists'.1 hentry
    have hvisit := hstill (.visit fd) rfl
    change s.next n (.visit fd) = none at hvisit
    simp [Teardown.next, hterm, visitNext, hpc, hc, hfd] at hvisit
  | lock fd c visited => exact .inr (hlock fd c visited (.inl hpc))
  | relock fd c visited => exact .inr (hlock fd c visited (.inr hpc))
  | check | unlock | closeEpoll => simp [Teardown.destructorNext, hpc] at hnext
  | asleep fd c visited => exact .inr ⟨fd, c, visited, .inl hpc⟩
  | returned => exact .inl rfl

/-- Nobody is about to notify at rest. -/
theorem AtRest.notifies (h : Refines s.threads.obs P) (hrest : s.AtRest) (t : Tid) :
    s.threads.notifies t = none := by
  rcases hrest.rests t with hr | hlocks
  · cases t with
    | acceptor | loop => rfl
    | pool i => rw [State.notifies, show s.threads.pool i = .idle from hr]
    | active i =>
      simp only [State.notifies]
      split
      · cases hr _ ‹_›
      · rfl
  · obtain ⟨i, fd, c, c', d, c'', rfl, hi⟩ := (selfLocks_iff_of_refines h t).1 hlocks
    rw [State.notifies, hi]

/-- A destructor that has returned or hangs does nothing more. -/
theorem destructorNext_eq_none (h : Refines s.threads.obs P)
    (hdestructor : s.destructor = .returned ∨ s.Hangs) : s.destructorNext = none := by
  rcases hdestructor with hpc | ⟨fd, c, visited, hpc | ⟨hpc, d, hd⟩⟩
  · rw [destructorNext, hpc]
  · rw [destructorNext, hpc]
  · have hheld := mutex_of_hasInHand h hd
    rcases hpc with hpc | hpc <;> simp [destructorNext, hpc, hheld]

/-- Where all threads rest and the destructor has returned or hangs, no step is left. -/
theorem standstill_of_atRest (hterm : s.threads.terminated = false)
    (h : Refines s.threads.obs P) (hrest : s.AtRest)
    (hdestructor : s.destructor = .returned ∨ s.Hangs) : Standstill n s := by
  intro l hl
  change s.next n l = none
  cases l with
  | thread t ch =>
    have hnone : s.threads.next n t ch = none := by
      by_contra hgo
      by_cases hch : ch.external = false
      · have hcan : CanGo (s.threads.next n t) := ⟨ch, hch, Option.isSome_iff_ne_none.2 hgo⟩
        rcases hrest.rests t with hr | hlocks
        · exact not_canGo_of_rests hrest.tasks hr hcan
        · exact not_canGo_of_selfLocks h hlocks hcan
      · -- the one step from outside that is none any more is the end of the epoll thread
        cases t with
        | loop => simp [State.next, hterm, State.loopNext, hrest.loop] at hgo
        | _ => exact hch hl
    simp [next, hterm, hnone]
  | deleteWrapper i => simp [next, hterm, hrest.returning i]
  | notifyDestructor t => simp [next, hterm, hrest.notifies h t]
  | spurious => cases hl
  | visit fd =>
    have hnot : ∀ visited, s.destructor ≠ .next visited := by
      rintro visited hpc
      rcases hdestructor with hpc' | ⟨fd, c, visited', hpc' | ⟨hpc' | hpc', -⟩⟩ <;>
        cases hpc.symm.trans hpc'
    simp only [next, hterm, if_neg Bool.false_ne_true, visitNext]
    split
    · exact absurd ‹_› (hnot _)
    · rfl
  | destructor => simp [next, hterm, destructorNext_eq_none h hdestructor]

/-- **A worker whose destructor has been called stands still exactly when** its threads
are at rest, nothing of it is left in the pool, and the destructor has returned, sleeps
on a `fd_cond`, or waits for an `fd_mutex` that a deadlocked active thread holds. -/
theorem stands_iff {ok : Teardown → TeardownStep → Prop} (hn : 0 < n)
    (hs : (teardown n).Reachable ok s) (hcalled : s.destructor ≠ .alive) :
    Standstill n s ↔ s.AtRest ∧ (s.destructor = .returned ∨ s.Hangs) := by
  obtain ⟨P, h, hinv⟩ := exists_refines hs
  have hterm := not_terminated hs
  have hacceptor := accepts hs hcalled
  constructor
  · intro hstill
    have hgo : ∀ t, ¬ CanGo (s.threads.next n t) := fun t => by
      rcases eq_or_ne t .acceptor with rfl | ht
      · rintro ⟨ch, hch, hsome⟩
        simp only [State.next, hterm, if_neg Bool.false_ne_true, State.acceptNext,
          hacceptor] at hsome
        cases ch <;> first | cases hch; done | cases hsome
      · exact hstill.not_canGo hterm ht
    have hidle : ∀ i, n ≤ i → s.threads.pool i = .idle := fun i hi => (idle_of_le hs i hi).1
    have hrests := rests_or_selfLocks hterm hidle (mapHeld hs) h hinv hgo
    have hnot : ∀ t, (∀ i, t ≠ .active i) → s.threads.Rests t := fun t ht =>
      (hrests t).resolve_right fun hlocks => by
        obtain ⟨i, -, -, -, -, -, heq, -⟩ := (selfLocks_iff_of_refines h t).1 hlocks
        exact ht i heq
    have hrest : s.AtRest := by
      refine ⟨?_, ?_, hstill.returning hterm, hrests⟩
      · -- `running` is off, so `epoll_wait` is not called again
        refine (hnot .loop fun i => by simp).resolve_left fun hwait => ?_
        have hstop := hstill (.thread .loop .stop) rfl
        change s.next n (.thread .loop .stop) = none at hstop
        simp [next, hterm, Admits, State.acquires, LoopPc.acquires, State.notifies, returningOf,
          State.next, State.loopNext, hwait] at hstop
      · by_contra htasks
        obtain ⟨⟨fd, d⟩, tasks, htasks⟩ := List.exists_cons_of_ne_nil htasks
        have hidle : s.threads.pool 0 = .idle := hnot (.pool 0) fun i => by simp
        refine hgo (.pool 0) ⟨.go, rfl, ?_⟩
        simp [State.next, hterm, hn, State.poolNext, hidle, htasks]
    exact ⟨hrest, hstill.destructor hterm h hcalled hrest⟩
  · rintro ⟨hrest, hdestructor⟩
    exact standstill_of_atRest hterm h hrest hdestructor

end Teardown

end Dispatch
end WeakAyas
