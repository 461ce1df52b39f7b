/-
# No thread locks an `fd_mutex` twice

`fd_mutex` is not recursive.  The one place where a thread locks it again is
`active_enqueue_event`: `activefd_handle_event` holds the mutex of the connection
while it reads, and hands every chunk to that function, which locks the mutex of
the same descriptor.  So a thread is about to lock a mutex that it holds exactly
when an active thread is at that second lock (`selfLocks_iff`), which takes a
`read` of an active thread that returns data.
-/

import WeakAyas.Dispatch.Simulation

namespace WeakAyas
namespace Dispatch

open TransitionSystem

/-- The `fd_mutex` that the epoll thread is about to lock. -/
def LoopPc.acquires : LoopPc → Option ConnId
  | lockFd _ _ c' _ => some c'
  | _ => none

def PoolPc.acquires : PoolPc → Option ConnId
  | lockFd _ _ c => some c
  | _ => none

def ActivePc.acquires : ActivePc → Option ConnId
  | lockFd _ _ c' | relockFd _ _ c' => some c'
  | enqLockFd _ _ _ _ c'' => some c''
  | endLockFd _ c => some c
  | _ => none

/-- The `fd_mutex` that a thread is about to lock. -/
def State.acquires (s : State) : Tid → Option ConnId
  | .acceptor => none
  | .loop => s.loop.acquires
  | .pool i => (s.pool i).acquires
  | .active i => (s.active[i]?).bind ActivePc.acquires

/-- The thread is about to lock an `fd_mutex` that it holds. -/
def State.SelfLocks (s : State) (t : Tid) : Prop :=
  ∃ c, s.acquires t = some c ∧ (s.info c).fdMutex = some t

variable {n : ℕ} {s : State}

/-- **A thread is about to lock a mutex that it holds exactly when it is an
active thread in `active_enqueue_event`.** -/
theorem selfLocks_iff_of_refines {P : Protocol} (h : Refines s.obs P) (t : Tid) :
    s.SelfLocks t ↔ ∃ i fd c c' d c'', t = .active i ∧
      s.active[i]? = some (.enqLockFd fd c c' d c'') := by
  constructor
  · rintro ⟨c, hacquires, hmutex⟩
    have hview : (s.obs.view t).mutex = some c := h.view_of_mutex hmutex
    cases t with
    | acceptor => cases hacquires
    | loop =>
      change s.loop.acquires = some c at hacquires
      change s.loop.view.mutex = some c at hview
      cases hpc : s.loop <;> rw [hpc] at hacquires hview <;> cases hacquires
      cases hview
    | pool i =>
      change (s.pool i).acquires = some c at hacquires
      change (s.pool i).view.mutex = some c at hview
      cases hpc : s.pool i <;> rw [hpc] at hacquires hview <;> cases hacquires
      cases hview
    | active i =>
      obtain ⟨p, hi, hp⟩ := Option.bind_eq_some_iff.1 hacquires
      rw [view_active hi] at hview
      cases p with
      | enqLockFd fd c₁ c' d c'' => exact ⟨i, fd, c₁, c', d, c'', rfl, hi⟩
      | lockFd | relockFd | endLockFd => cases hview
      | _ => cases hp
  · rintro ⟨i, fd, c, c', d, c'', rfl, hi⟩
    exact ⟨c'', by rw [State.acquires, hi]; rfl, enqLockFd_holds h hi⟩

theorem selfLocks_iff {ok : State → Tid × Choice → Prop} (hs : (worker n).Reachable ok s)
    (t : Tid) : s.SelfLocks t ↔ ∃ i fd c c' d c'', t = .active i ∧
      s.active[i]? = some (.enqLockFd fd c c' d c'') := by
  obtain ⟨P, h, -⟩ := exists_refines hs
  exact selfLocks_iff_of_refines h t

/-- Where no active thread has a chunk in hand, no thread locks a mutex twice. -/
theorem not_selfLocks_of_owner {P : Protocol} (h : Refines s.obs P)
    (hquiet : ∀ fd σ, P.slot fd = some σ → ∀ i d, σ.owner ≠ .thread (.active i) (.got d))
    (t : Tid) : ¬ s.SelfLocks t := by
  rw [selfLocks_iff_of_refines h]
  rintro ⟨i, fd, c, c', d, c'', -, hi⟩
  -- the thread would be in charge of a chunk that it has read
  obtain ⟨σ, hσ, ho⟩ := h.slot_of_owns (view_active hi) rfl
  exact hquiet fd σ hσ i d ho

/-- No `read` of an active thread returns data. -/
def NoActiveData (s : State) (l : Tid × Choice) : Prop := ¬ ActiveReads s l.1 l.2

/-- **No thread is about to lock an `fd_mutex` that it holds**, in any state
reached without a `read` of an active thread that returns data. -/
theorem not_selfLocks (hs : (worker n).Reachable NoActiveData s) (t : Tid) : ¬ s.SelfLocks t := by
  obtain ⟨P, hP, h⟩ := (simulation n (q := fun m => ∀ i d, m ≠ .read (.active i) d)
    fun s l m hl hm i d heq => hl (hm.reads i d heq)).reachable hs
  exact not_selfLocks_of_owner h (fun fd σ hσ i d => not_activeGot hP hσ i d) t

/-- After a request that the pool handles the active thread finds nothing to read, and
with the mutex in its hand locks none. -/
theorem not_selfLocks_handled :
    ∃ s, (worker 1).Reachable NoActiveData s ∧ s.finished 0 = [buildPackage 1 [35]] ∧
      (s.info 0).fdMutex = some (.active 0) ∧ ∀ t, ¬ s.SelfLocks t := by
  have hchoices : ∀ l ∈ drained (buildPackage 1 [35]),
      l.1 = .acceptor ∨ l.1 = .loop ∨ l.1 = .pool 0 ∨ l.2 = .go ∨ l.2 = .read .eagain := by
    decide +kernel
  have hok : ∀ l ∈ drained (buildPackage 1 [35]), ∀ s, NoActiveData s l := by
    rintro l hl s ⟨i, -, -, -, d, hi, -, hd⟩
    rcases hchoices l hl with h | h | h | h | h
    · rw [h] at hi; cases hi
    · rw [h] at hi; cases hi
    · rw [h] at hi; cases hi
    · rw [h] at hd; cases hd
    · rw [h] at hd; cases hd
  obtain ⟨s, hs, hp⟩ := (reachable_start 1 NoActiveData).exists_of_run _
    (fun s => s.finished 0 == [buildPackage 1 [35]] && (s.info 0).fdMutex == some (.active 0))
    hok (by decide +kernel)
  simp only [Bool.and_eq_true, beq_iff_eq] at hp
  exact ⟨s, hs, hp.1, hp.2, not_selfLocks hs⟩

/-- A second request arrives while the first is in the pool: the active thread
reads it and waits for the mutex that it holds. -/
theorem selfLocks_secondRequest :
    ∃ s, (worker 1).Reachable anyStep s ∧ s.SelfLocks (.active 0) := by
  obtain ⟨s, hs, hp⟩ := (reachable_start 1 anyStep).exists_of_run
    (firstChunk (buildPackage 1 [35]) ++ secondEvent ++ runTask ++
      List.replicate 9 (.active 0, .go) ++ (.active 0, .read (.data (buildPackage 2 []))) ::
      List.replicate 3 (.active 0, .go))
    (fun s => s.acquires (.active 0) == some 0 && (s.info 0).fdMutex == some (.active 0))
    (fun _ _ _ => trivial) (by decide +kernel)
  simp only [Bool.and_eq_true, beq_iff_eq] at hp
  exact ⟨s, hs, 0, hp⟩

end Dispatch
end WeakAyas
