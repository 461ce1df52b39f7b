/-
# `~EpollWorker` among the threads

The threads of `Dispatch.Threads` with `~EpollWorker` (`EpollWorker.cpp`, lines
28-53), which `TCPServer::stop` runs when the accept thread has ended.  It clears
`running`, joins the epoll thread, and waits for `thread_running` to be off, one
entry of `fd_infos` after the other, on the same `fd_cond` as the active threads.
So a `notify_one` may wake it in the place of an active thread.

`enqueue_event_wrapper` deletes its `EventWrapper` after it has released the
`fd_mutex`: until then the worker of the pool is still returning from its task.

The destructor does not lock `fd_map`.  A `close_fd` at the same time is a data
race, of which the model has the harmless outcome: the loop goes on with the
entries that are there.  The pool also runs the tasks of other `EpollWorker`s;
those take steps of no worker here.
-/

import WeakAyas.Dispatch.Flag
import WeakAyas.Dispatch.Mutex

namespace WeakAyas
namespace Dispatch

open TransitionSystem

/-- `EpollWorker::~EpollWorker`: not called, at `pthread_join`, in the loop over
`fd_infos` with the descriptors visited, or past it.  From `lock` on it has the entry
`fd` with `info = c`; it holds the `fd_mutex` at `check` and `unlock`. -/
inductive DestructorPc where
  | alive
  | join
  | next (visited : List Fd)
  | lock (fd : Fd) (c : ConnId) (visited : List Fd)
  | check (fd : Fd) (c : ConnId) (visited : List Fd)
  | asleep (fd : Fd) (c : ConnId) (visited : List Fd)
  | relock (fd : Fd) (c : ConnId) (visited : List Fd)
  | unlock (fd : Fd) (c : ConnId) (visited : List Fd)
  | closeEpoll
  | returned
  deriving DecidableEq, Repr

namespace DestructorPc

/-- The connection whose `fd_mutex` the destructor holds. -/
def holds : DestructorPc → Option ConnId
  | check _ c _ | unlock _ c _ => some c
  | _ => none

/-- The connection on whose `fd_cond` the destructor sleeps. -/
def sleepsOn : DestructorPc → Option ConnId
  | asleep _ c _ => some c
  | _ => none

end DestructorPc

/-- The connection whose `fd_cond` the thread is about to notify. -/
def State.notifies (s : State) : Tid → Option ConnId
  | .acceptor | .loop => none
  | .pool i => match s.pool i with
    | .notify _ c => some c
    | _ => none
  | .active i => match s.active[i]? with
    | some (.endNotify _ c) => some c
    | _ => none

/-- The thread has called `notify_one`, and no thread of `s` has woken. -/
def State.pastNotify (s : State) : Tid → Option State
  | .acceptor | .loop => none
  | .pool i => match s.pool i with
    | .notify fd c => some (s.setPool i (.unlockFd fd c))
    | _ => none
  | .active i => match s.active[i]? with
    | some (.endNotify fd c) => some (s.setActive i (.endUnlockFd fd c false))
    | _ => none

/-- A pool worker without a task is idle. -/
theorem PoolPc.eq_idle {p : PoolPc} (h : p.task = none) : p = .idle := by
  cases p with
  | idle => rfl
  | _ => cases h

/-- The threads and the destructor.  `returning` are the workers of the pool that
have left `enqueue_event_wrapper_nonstatic` and not deleted the `EventWrapper` yet,
with its descriptor, and `keys` the descriptors that `add_fd` has put into
`fd_infos`. -/
structure Teardown where
  threads : State
  destructor : DestructorPc
  returning : ℕ → Option Fd
  keys : List Fd

/-- The steps: of a thread, `delete wrapper` of a worker of the pool, a
`notify_one` that wakes the destructor, a spurious wakeup of the destructor, its
next entry, and its other steps. -/
inductive TeardownStep where
  | thread (t : Tid) (ch : Choice)
  | deleteWrapper (i : ℕ)
  | notifyDestructor (t : Tid)
  | spurious
  | visit (fd : Fd)
  | destructor
  deriving DecidableEq, Repr

namespace Teardown

/-- The worker before its first connection. -/
def start : Teardown := ⟨.start, .alive, fun _ => none, []⟩

variable (s : Teardown)

/-- A task of the descriptor is queued or executing; a worker executes it until it
has deleted the `EventWrapper`. -/
def TaskPending (fd : Fd) : Prop :=
  s.threads.TaskPending fd ∨ ∃ i, s.returning i = some fd

def setDestructor (d : DestructorPc) : Teardown := { s with destructor := d }

/-- The `EventWrapper` that the thread has not deleted yet. -/
def returningOf : Tid → Option Fd
  | .pool i => s.returning i
  | _ => none

/-- The destructor lets the thread take the step: `add_fd` is not called any more,
a mutex that the destructor holds is not free, and a `notify_one` on which the
destructor sleeps wakes somebody. -/
def Admits (t : Tid) (ch : Choice) : Prop :=
  (t = .acceptor → s.destructor = .alive) ∧
  (s.threads.acquires t = none ∨ s.threads.acquires t ≠ s.destructor.holds) ∧
  (ch = .wake none →
    s.threads.notifies t = none ∨ s.threads.notifies t ≠ s.destructor.sleepsOn) ∧
  s.returningOf t = none

instance (t : Tid) (ch : Choice) : Decidable (s.Admits t ch) :=
  inferInstanceAs (Decidable (_ ∧ _ ∧ _ ∧ _))

/-- The state after a step of the thread `t` to `threads`. -/
def after (t : Tid) (threads : State) : Teardown where
  threads := threads
  destructor := s.destructor
  returning := match t with
    | .pool i =>
      if (threads.pool i).task = none then Function.update s.returning i (s.threads.pool i).task
      else s.returning
    | _ => s.returning
  keys := match t, s.threads.acceptor with
    | .acceptor, .insert fd _ => fd :: s.keys
    | _, _ => s.keys

/-- The destructor wakes and takes the mutex again. -/
def wake : Option Teardown :=
  match s.destructor with
  | .asleep fd c visited => some (s.setDestructor (.relock fd c visited))
  | _ => none

/-- `for (auto& [fd, info] : fd_infos)` comes to the entry `fd`. -/
def visitNext (fd : Fd) : Option Teardown :=
  match s.destructor, s.threads.fdInfos fd with
  | .next visited, some c =>
    if fd ∈ visited then none else some (s.setDestructor (.lock fd c visited))
  | _, _ => none

/-- A step of the destructor. -/
def destructorNext : Option Teardown :=
  match s.destructor with
  | .alive => if s.threads.acceptor = .accept then some (s.setDestructor .join) else none
  | .join => if s.threads.loop = .ended then some (s.setDestructor (.next [])) else none
  | .next visited =>
    if ∀ fd ∈ s.keys, s.threads.fdInfos fd = none ∨ fd ∈ visited then
      some (s.setDestructor .closeEpoll)
    else none
  | .lock fd c visited | .relock fd c visited =>
    if (s.threads.info c).fdMutex = none then some (s.setDestructor (.check fd c visited)) else none
  | .check fd c visited => some (s.setDestructor
      (if (s.threads.info c).threadRunning then .asleep fd c visited else .unlock fd c visited))
  | .unlock fd _ visited => some (s.setDestructor (.next (visited ++ [fd])))
  | .closeEpoll => some (s.setDestructor .returned)
  | .asleep _ _ _ | .returned => none

def next (n : ℕ) (l : TeardownStep) : Option Teardown :=
  if s.threads.terminated then none
  else match l with
    | .thread t ch => if s.Admits t ch then (s.threads.next n t ch).map (s.after t) else none
    | .deleteWrapper i =>
      if s.returning i = none then none
      else some { s with returning := Function.update s.returning i none }
    | .notifyDestructor t =>
      if s.threads.notifies t = none then none
      else if s.threads.notifies t = s.destructor.sleepsOn then
        s.wake.bind fun s' => (s.threads.pastNotify t).map fun threads => { s' with threads }
      else none
    | .spurious => s.wake
    | .visit fd => s.visitNext fd
    | .destructor => s.destructorNext

end Teardown

/-- A worker and its destructor, with `n` threads in the pool. -/
def teardown (n : ℕ) : TransitionSystem Teardown TeardownStep where
  init s := s = .start
  next s l := s.next n l

namespace Teardown

/-- One step: its label, its guard and the state after it. -/
inductive Move (n : ℕ) (s : Teardown) : TeardownStep → Teardown → Prop where
  | thread {t : Tid} {ch : Choice} {threads : State} : s.Admits t ch →
      s.threads.next n t ch = some threads → Move n s (.thread t ch) (s.after t threads)
  | deleteWrapper {i : ℕ} : s.returning i ≠ none →
      Move n s (.deleteWrapper i) { s with returning := Function.update s.returning i none }
  | notifyPool {i : ℕ} {fd fd' : Fd} {c : ConnId} {visited : List Fd} :
      s.threads.pool i = .notify fd c → s.destructor = .asleep fd' c visited →
      Move n s (.notifyDestructor (.pool i)) { s with
        threads := s.threads.setPool i (.unlockFd fd c), destructor := .relock fd' c visited }
  | notifyActive {i : ℕ} {fd fd' : Fd} {c : ConnId} {visited : List Fd} :
      s.threads.active[i]? = some (.endNotify fd c) → s.destructor = .asleep fd' c visited →
      Move n s (.notifyDestructor (.active i)) { s with
        threads := s.threads.setActive i (.endUnlockFd fd c false)
        destructor := .relock fd' c visited }
  | spurious {fd : Fd} {c : ConnId} {visited : List Fd} : s.destructor = .asleep fd c visited →
      Move n s .spurious (s.setDestructor (.relock fd c visited))
  | visit {fd : Fd} {c : ConnId} {visited : List Fd} : s.destructor = .next visited →
      s.threads.fdInfos fd = some c → Move n s (.visit fd) (s.setDestructor (.lock fd c visited))
  | stop : s.destructor = .alive → s.threads.acceptor = .accept →
      Move n s .destructor (s.setDestructor .join)
  | join : s.destructor = .join → s.threads.loop = .ended →
      Move n s .destructor (s.setDestructor (.next []))
  | done {visited : List Fd} : s.destructor = .next visited →
      (∀ fd ∈ s.keys, s.threads.fdInfos fd = none ∨ fd ∈ visited) →
      Move n s .destructor (s.setDestructor .closeEpoll)
  | lock {fd : Fd} {c : ConnId} {visited : List Fd} :
      s.destructor = .lock fd c visited ∨ s.destructor = .relock fd c visited →
      Move n s .destructor (s.setDestructor (.check fd c visited))
  | wait {fd : Fd} {c : ConnId} {visited : List Fd} : s.destructor = .check fd c visited →
      Move n s .destructor (s.setDestructor (.asleep fd c visited))
  | pass {fd : Fd} {c : ConnId} {visited : List Fd} : s.destructor = .check fd c visited →
      (s.threads.info c).threadRunning = false →
      Move n s .destructor (s.setDestructor (.unlock fd c visited))
  | unlock {fd : Fd} {c : ConnId} {visited : List Fd} : s.destructor = .unlock fd c visited →
      Move n s .destructor (s.setDestructor (.next (visited ++ [fd])))
  | closeEpoll : s.destructor = .closeEpoll → Move n s .destructor (s.setDestructor .returned)

variable {n : ℕ} {s s' : Teardown}

/-- The start is reached. -/
theorem reachable_start (n : ℕ) (ok : Teardown → TeardownStep → Prop) :
    (teardown n).Reachable ok .start := .init rfl

/-- Only a sleeping destructor is woken. -/
theorem wake_eq (h : s.wake = some s') : ∃ fd c visited,
    s.destructor = .asleep fd c visited ∧ s' = s.setDestructor (.relock fd c visited) := by
  unfold wake at h
  split at h <;> cases h
  exact ⟨_, _, _, ‹_›, rfl⟩

/-- A notification that wakes the destructor is one of the moves. -/
theorem move_of_notify {t : Tid} (h : s.next n (.notifyDestructor t) = some s') :
    Move n s (.notifyDestructor t) s' := by
  simp only [next] at h
  split_ifs at h with _ hnone heq
  obtain ⟨s₁, hwake, h⟩ := Option.bind_eq_some_iff.1 h
  obtain ⟨threads, hpast, rfl⟩ := Option.map_eq_some_iff.1 h
  obtain ⟨fd', c', visited, hdestructor, rfl⟩ := wake_eq hwake
  rw [hdestructor] at heq
  cases t with
  | acceptor | loop => cases hpast
  | pool i =>
    cases hpc : s.threads.pool i with
    | notify fd c =>
      simp only [State.pastNotify, hpc, Option.some.injEq] at hpast
      simp only [State.notifies, hpc, DestructorPc.sleepsOn, Option.some.injEq] at heq
      subst hpast heq
      exact .notifyPool hpc hdestructor
    | _ => simp [State.pastNotify, hpc] at hpast
  | active i =>
    cases hi : s.threads.active[i]? with
    | none => simp [State.pastNotify, hi] at hpast
    | some p =>
      cases p with
      | endNotify fd c =>
        simp only [State.pastNotify, hi, Option.some.injEq] at hpast
        simp only [State.notifies, hi, DestructorPc.sleepsOn, Option.some.injEq] at heq
        subst hpast heq
        exact .notifyActive hi hdestructor
      | _ => simp [State.pastNotify, hi] at hpast

/-- A step of the destructor is one of the moves. -/
theorem move_of_destructorNext (h : s.destructorNext = some s') : Move n s .destructor s' := by
  unfold destructorNext at h
  split at h
  case h_1 hpc =>
    split_ifs at h with hacceptor
    cases h
    exact .stop hpc hacceptor
  case h_2 hpc =>
    split_ifs at h with hloop
    cases h
    exact .join hpc hloop
  case h_3 hpc =>
    split_ifs at h with hall
    cases h
    exact .done hpc hall
  case h_4 hpc =>
    split_ifs at h
    cases h
    exact .lock (.inl hpc)
  case h_5 hpc =>
    split_ifs at h
    cases h
    exact .lock (.inr hpc)
  case h_6 hpc =>
    split_ifs at h with hrunning <;> cases h
    · exact .wait hpc
    · exact .pass hpc (by simpa using hrunning)
  case h_7 hpc =>
    cases h
    exact .unlock hpc
  case h_8 hpc =>
    cases h
    exact .closeEpoll hpc
  case h_9 => cases h
  case h_10 => cases h

/-- **Every step is one of the moves.** -/
theorem move_of_next {l : TeardownStep} (h : s.next n l = some s') : Move n s l s' := by
  cases l with
  | thread t ch =>
    simp only [next] at h
    split_ifs at h with _ hadmits
    obtain ⟨threads, hnext, rfl⟩ := Option.map_eq_some_iff.1 h
    exact .thread hadmits hnext
  | deleteWrapper i =>
    simp only [next] at h
    split_ifs at h with _ hnone
    cases h
    exact .deleteWrapper hnone
  | notifyDestructor t => exact move_of_notify h
  | spurious =>
    simp only [next] at h
    split_ifs at h
    obtain ⟨fd, c, visited, hdestructor, rfl⟩ := wake_eq h
    exact .spurious hdestructor
  | visit fd =>
    simp only [next, visitNext] at h
    split_ifs at h
    split at h
    · split_ifs at h
      cases h
      exact .visit ‹_› ‹_›
    · cases h
  | destructor =>
    simp only [next] at h
    split_ifs at h
    exact move_of_destructorNext h

/-- Steps of the threads. -/
def ofThreads (ls : List (Tid × Choice)) : List TeardownStep := ls.map fun l => .thread l.1 l.2

/-! ### The threads still follow the protocol -/

/-- Beside the steps of the threads only a notification moves one, and it is
nothing to the protocol. -/
theorem Move.obs_eq {l : TeardownStep} (hm : Move n s l s') :
    (∃ t ch, l = .thread t ch ∧ s.threads.next n t ch = some s'.threads) ∨
      s'.threads.obs = s.threads.obs := by
  cases hm with
  | thread _ hnext => exact .inl ⟨_, _, rfl, hnext⟩
  | @notifyPool i fd fd' c visited hpc =>
    have hview : s.threads.obs.view (.pool i) = (PoolPc.notify fd c).view :=
      congrArg PoolPc.view hpc
    refine .inr ?_
    change (s.threads.setPool i _).obs = s.threads.obs
    rw [State.obs_setPool, show (PoolPc.unlockFd fd c).view = (PoolPc.notify fd c).view from rfl,
      ← hview, Obs.setView, Function.update_eq_self]
  | @notifyActive i fd fd' c visited hi =>
    have hview : s.threads.obs.view (.active i) = (ActivePc.endNotify fd c).view := view_active hi
    refine .inr ?_
    change (s.threads.setActive i _).obs = s.threads.obs
    rw [State.obs_setActive _ hi,
      show (ActivePc.endUnlockFd fd c false).view = (ActivePc.endNotify fd c).view from rfl,
      ← hview, Obs.setView, Function.update_eq_self]
  | _ => exact .inr rfl

/-- **The threads refine the protocol**, with the moves that their steps permit. -/
theorem simulation (n : ℕ) {ok : Teardown → TeardownStep → Prop} {q : Dispatch.Move → Prop}
    (hok : ∀ s t ch m, ok s (.thread t ch) → Permits s.threads t ch m → q m) :
    Simulation (teardown n) ok protocol (Only q) fun s P => Refines s.threads.obs P where
  init s hs := ⟨.start, rfl, hs ▸ refines_start⟩
  step s s' l P hP h hl hn := by
    rcases (move_of_next hn).obs_eq with ⟨t, ch, rfl, hnext⟩ | hobs
    · rcases follows h (inv_of_reachable hP) hnext with hsame | ⟨a, P', hP', h', hallowed⟩
      · exact .inl hsame
      · exact .inr ⟨a, P', fun fd m ha => hok s t ch m hl (hallowed fd m ha), hP', h'⟩
    · exact .inl (hobs ▸ h)

/-- Every reachable state has threads that refine the protocol. -/
theorem exists_refines {ok : Teardown → TeardownStep → Prop} (hs : (teardown n).Reachable ok s) :
    ∃ P, Refines s.threads.obs P ∧ P.Inv := by
  obtain ⟨P, hP, h⟩ := (simulation n (q := fun _ => True) fun _ _ _ _ _ _ => trivial).reachable hs
  exact ⟨P, h, inv_of_reachable hP⟩

/-- A worker of the pool that moves is one of the `n`. -/
theorem lt_of_next_pool {σ σ' : State} {i : ℕ} {ch : Choice}
    (h : σ.next n (.pool i) ch = some σ') : i < n := by
  simp only [State.next] at h
  split_ifs at h with _ hlt
  exact hlt

/-- The pool has `n` workers. -/
theorem idle_of_le {ok : Teardown → TeardownStep → Prop} (hs : (teardown n).Reachable ok s) :
    ∀ i, n ≤ i → s.threads.pool i = .idle ∧ s.returning i = none := by
  refine hs.invariant (I := fun s => ∀ i, n ≤ i → s.threads.pool i = .idle ∧ s.returning i = none)
    (fun s h => ?_) fun s s' l hidle _ hn i hi => ?_
  · obtain rfl : s = .start := h
    exact fun _ _ => ⟨rfl, rfl⟩
  · have hm := move_of_next hn
    cases hm with
    | @thread t ch threads _ hnext =>
      constructor
      · rcases next_cases hnext with hk | ⟨j, hj, hstep⟩
        · exact hk.pool ▸ (hidle i hi).1
        · exact (hstep.pool_of_ne (by omega)).trans (hidle i hi).1
      · cases t with
        | pool j =>
          have hj := lt_of_next_pool hnext
          simp only [after]
          split_ifs
          · exact (Function.update_of_ne (by omega) ..).trans (hidle i hi).2
          · exact (hidle i hi).2
        | _ => exact (hidle i hi).2
    | @deleteWrapper j hj =>
      refine ⟨(hidle i hi).1, ?_⟩
      change Function.update s.returning j none i = none
      rw [Function.update_apply, (hidle i hi).2, ite_self]
    | @notifyPool j fd fd' c visited hpc =>
      have hne : i ≠ j := by
        rintro rfl
        rw [(hidle i hi).1] at hpc
        cases hpc
      exact ⟨(Function.update_of_ne hne ..).trans (hidle i hi).1, (hidle i hi).2⟩
    | _ => exact hidle i hi

/-- A pool of one worker with nothing in hand is idle. -/
theorem idle_of_one {ok : Teardown → TeardownStep → Prop} (hs : (teardown 1).Reachable ok s)
    (hpool : (s.threads.pool 0).task = none) (hreturning : s.returning 0 = none) (i : ℕ) :
    s.threads.pool i = .idle ∧ s.returning i = none := by
  rcases i with _ | i
  · exact ⟨PoolPc.eq_idle hpool, hreturning⟩
  · exact idle_of_le hs (i + 1) (Nat.le_add_left 1 i)

/-- An idle pool with an empty queue has no task. -/
theorem not_taskPending (htasks : s.threads.tasks = [])
    (hidle : ∀ i, s.threads.pool i = .idle ∧ s.returning i = none) (fd : Fd) :
    ¬ s.TaskPending fd := by
  rintro ((⟨d, hd⟩ | ⟨i, hi⟩) | ⟨i, hi⟩)
  · rw [htasks] at hd
    cases hd
  · rw [(hidle i).1] at hi
    cases hi
  · rw [(hidle i).2] at hi
    cases hi

end Teardown

end Dispatch
end WeakAyas
