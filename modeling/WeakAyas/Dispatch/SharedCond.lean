/-
# Two kinds of waiters on one `fd_cond`

An active thread waits on `fd_cond` for `fd_inthreadpool` to be off, and
`~EpollWorker` waits on the same variable for `thread_running` to be off.  The task
of the pool calls `notify_one`.  Where both sleep it may wake the destructor, which
finds `thread_running` set and sleeps again; the active thread, for which the
notification was, is never woken, and the destructor waits for it
(`lost_wakeup`).  Without such a notification none is lost (`not_lost`).
-/

import WeakAyas.Dispatch.Teardown

namespace WeakAyas
namespace Dispatch

open TransitionSystem

/-- The step is a notification that wakes the destructor. -/
def TeardownStep.wakesDestructor : TeardownStep → Bool
  | notifyDestructor _ => true
  | _ => false

theorem ActivePc.eq_asleep {p : ActivePc} {c : ConnId} (h : p.sleepsOn = some c) :
    ∃ fd c₁, p = .asleep fd c₁ c := by
  cases p with
  | asleep fd c₁ c' =>
    cases h
    exact ⟨fd, c₁, rfl⟩
  | _ => cases h

namespace Teardown

/-- The active thread `i` sleeps on the `fd_cond` of `c`, though `fd_inthreadpool`
is off, no task of the descriptor is left, and nobody is about to notify. -/
structure Lost (s : Teardown) (i : ℕ) (fd : Fd) (c : ConnId) : Prop where
  asleep : ∃ c₁, s.threads.active[i]? = some (.asleep fd c₁ c)
  flag : (s.threads.info c).fdInthreadpool = false
  task : ¬ s.TaskPending fd
  notification : ∀ t, s.threads.notifies t ≠ some c

/-- The task of a connection wakes the destructor while an active thread sleeps on
the same `fd_cond`. -/
def Misdirects (s : Teardown) (l : TeardownStep) : Prop :=
  ∃ i c, l = .notifyDestructor (.pool i) ∧ s.threads.notifies (.pool i) = some c ∧
    ∃ p ∈ s.threads.active, p.sleepsOn = some c

/-- Every notification of a task reaches the thread that waits for the task. -/
def Directed (s : Teardown) (l : TeardownStep) : Prop := ¬ s.Misdirects l

variable {n : ℕ} {s s' : Teardown} {P : Protocol}

/-- A step that misdirects no notification keeps the waiting threads heard. -/
theorem Move.heard {l : TeardownStep} (h : Refines s.threads.obs P) (hinv : P.Inv)
    (hs : s.threads.Heard) (hl : s.Directed l) (hm : Move n s l s') : s'.threads.Heard := by
  cases hm with
  | thread _ hnext =>
    rcases next_cases hnext with hk | ⟨i, -, hstep⟩
    · exact hk.heard hs
    · exact hstep.heard h hinv hs
  | @notifyPool i fd fd' c visited hpc =>
    -- nobody else sleeps there, so this is a notification without a sleeper
    have hnobody : ∀ p ∈ s.threads.active, p.sleepsOn ≠ some c := fun p hp hsleeps =>
      hl ⟨i, c, rfl, by simp [State.notifies, hpc], p, hp, hsleeps⟩
    have hnotify : s.threads.notifyOne c none = some s.threads := if_pos hnobody
    exact (PoolStep.notify (.unlockFd fd c) hpc hnotify).heard h hinv hs
  | @notifyActive i fd fd' c visited hi =>
    have hk : Keeps s.threads (s.threads.setActive i (.endUnlockFd fd c false)) :=
      .setActive hi (.frame rfl rfl rfl) fun _ _ hw => by cases hw
    exact hk.heard hs
  | _ => exact hs

/-- Who waits is notified, in every state of such a run. -/
theorem heard_of_reachable (hs : (teardown n).Reachable Directed s) : s.threads.Heard := by
  refine hs.invariant_with (fun s hs => exists_refines hs) (fun s h => ?_)
    fun s s' l ⟨P, h, hinv⟩ hheard hl hn => (move_of_next hn).heard h hinv hheard hl
  obtain rfl : s = .start := h
  exact fun i fd c hw => nomatch hw

/-- **No wakeup is lost**, in any state reached without a notification of a task
that wakes the destructor in the place of an active thread. -/
theorem not_lost (hs : (teardown n).Reachable Directed s) (i : ℕ) (fd : Fd) (c : ConnId) :
    ¬ s.Lost i fd c := by
  rintro ⟨⟨c₁, hi⟩, hflag, htask, -⟩
  have hw : s.threads.waits i = some (fd, c) := by
    rw [State.waits, hi]
    rfl
  rcases heard_of_reachable hs i fd c hw with hset | ⟨j, hj⟩
  · exact absurd (hflag.symm.trans hset) (by decide)
  · exact htask (.inl (.inr ⟨j, by rw [hj]; rfl⟩))

/-! ### Both sleep -/

/-- An active thread waits for the task of its connection, the epoll thread ends,
and the destructor waits for the active thread; then the task is about to notify. -/
def bothAsleep (d : Bytes) : List TeardownStep :=
  ofThreads (waiting d ++ [(.loop, .stop)]) ++
    [.destructor, .destructor, .visit 5, .destructor, .destructor] ++
    ofThreads (List.replicate 8 (.pool 0, .go))

/-- The task wakes the active thread. -/
theorem not_lost_woken :
    ∃ s, (teardown 1).Reachable Directed s ∧ s.destructor = .asleep 5 0 [] ∧
      ∀ i, ¬ s.Lost i 5 0 := by
  have hlabels : ∀ l ∈ bothAsleep (buildPackage 1 [35]) ++ [.thread (.pool 0) (.wake (some 0))],
      TeardownStep.wakesDestructor l = false := by decide +kernel
  have hok : ∀ l ∈ bothAsleep (buildPackage 1 [35]) ++ [.thread (.pool 0) (.wake (some 0))],
      ∀ s, Directed s l := by
    rintro l hl s ⟨i, c, rfl, -⟩
    exact absurd (hlabels _ hl) (by simp [TeardownStep.wakesDestructor])
  obtain ⟨s, hs, hp⟩ := (reachable_start 1 Directed).exists_of_run _
    (fun s => s.destructor == .asleep 5 0 []) hok (by decide +kernel)
  exact ⟨s, hs, by simpa using hp, fun i => not_lost hs i 5 0⟩

/-- **The task wakes the destructor**, which sleeps again.  The active thread
sleeps on, and nobody is left to wake it. -/
theorem lost_wakeup : ∃ s, (teardown 1).Reachable anyStep s ∧ s.Lost 0 5 0 := by
  obtain ⟨s, hs, hp⟩ := (reachable_start 1 anyStep).exists_of_run
    (bothAsleep (buildPackage 1 [35]) ++ [.notifyDestructor (.pool 0), .thread (.pool 0) .go,
      .deleteWrapper 0, .destructor, .destructor])
    (fun s => s.threads.waits 0 == some (5, 0) &&
      s.threads.active.map ActivePc.sleepsOn == [some 0] && !(s.threads.info 0).fdInthreadpool &&
      s.threads.tasks == [] && (s.threads.pool 0).task == none && s.returning 0 == none)
    (fun _ _ _ => trivial) (by decide +kernel)
  simp only [Bool.and_eq_true, beq_iff_eq, Bool.not_eq_true'] at hp
  obtain ⟨⟨⟨⟨⟨hwaits, hsleeps⟩, hflag⟩, htasks⟩, hpool⟩, hreturning⟩ := hp
  have hidle := idle_of_one hs hpool hreturning
  obtain ⟨p, hactive, hp⟩ := List.map_eq_singleton_iff.1 hsleeps
  obtain ⟨fd, c₁, rfl⟩ := ActivePc.eq_asleep hp
  simp only [State.waits, hactive, List.getElem?_cons_zero, Option.bind_some, ActivePc.waits,
    Option.some.injEq, Prod.mk.injEq, and_true] at hwaits
  subst hwaits
  refine ⟨s, hs, ⟨c₁, by rw [hactive]; rfl⟩, hflag, not_taskPending htasks hidle 5, fun t => ?_⟩
  cases t with
  | acceptor | loop => simp [State.notifies]
  | pool i => simp [State.notifies, (hidle i).1]
  | active i => rcases i with _ | i <;> simp [State.notifies, hactive]

end Teardown

end Dispatch
end WeakAyas
