/-
# Tasks that outlive their worker

`~EpollWorker` waits for `thread_running` of every entry of `fd_infos`.  Its tasks
in the pool are behind another flag, `fd_inthreadpool`, for which it does not wait:
it may return while one of them is queued or executing (`outlives`).

After the join nobody enqueues.  From then on a connection leaves the care of the
destructor when its wait is over, and when it has no entry or loses it.  Where none
leaves with a task, none is left in the end (`nothing_left`).
-/

import WeakAyas.Dispatch.Teardown
import WeakAyas.Dispatch.Registered

namespace WeakAyas
namespace Dispatch

open TransitionSystem

namespace DestructorPc

/-- The epoll thread is joined. -/
def joined : DestructorPc → Bool
  | alive | join => false
  | next _ | lock _ _ _ | check _ _ _ | asleep _ _ _ | relock _ _ _ | unlock _ _ _ | closeEpoll
  | returned => true

/-- The descriptors that the destructor has waited for. -/
def visited : DestructorPc → List Fd
  | next visited | lock _ _ visited | check _ _ visited | asleep _ _ visited
  | relock _ _ visited => visited
  | unlock fd _ visited => visited ++ [fd]
  | alive | join | closeEpoll | returned => []

/-- The destructor is past its loop. -/
def done : DestructorPc → Bool
  | closeEpoll | returned => true
  | alive | join | next _ | lock _ _ _ | check _ _ _ | asleep _ _ _ | relock _ _ _
  | unlock _ _ _ => false

/-- The destructor visits the entries after the join. -/
theorem joined_of_mem_visited {d : DestructorPc} {fd : Fd} (h : fd ∈ d.visited) :
    d.joined = true := by
  cases d with
  | alive | join => cases h
  | _ => rfl

/-- It is done after the join. -/
theorem joined_of_done {d : DestructorPc} (h : d.done = true) : d.joined = true := by
  cases d with
  | closeEpoll | returned => rfl
  | _ => cases h

end DestructorPc

namespace Teardown

/-- After the step the destructor does not wait for the connection any more, or will
not: the epoll thread is joined and the connection has no entry, `close_fd` takes its
entry out afterwards, or the destructor finds `thread_running` off. -/
def Leaves (s : Teardown) (fd : Fd) : TeardownStep → Prop
  | .thread t _ => s.destructor.joined = true ∧ s.threads.Erases fd t
  | .destructor => s.destructor = .join ∧ s.threads.fdInfos fd = none ∨
    ∃ c visited, s.destructor = .check fd c visited ∧ (s.threads.info c).threadRunning = false
  | _ => False

/-- No connection leaves with a task. -/
def Waits (s : Teardown) (l : TeardownStep) : Prop := ∀ fd, s.Leaves fd l → ¬ s.TaskPending fd

variable {n : ℕ} {s s' : Teardown}

/-- Only the epoll thread makes a task. -/
theorem Move.pending {l : TeardownStep} (hm : Move n s l s') {fd : Fd} (h : s'.TaskPending fd) :
    s.TaskPending fd ∨ ∃ ch, l = .thread .loop ch ∧ s.threads.loop.Enqueueing fd := by
  cases hm with
  | @thread t ch threads _ hnext =>
    rcases h with hpending | ⟨i, hi⟩
    · rcases (next_changes hnext).pending fd hpending with hold | ⟨rfl, henqueueing⟩
      · exact .inl (.inl hold)
      · exact .inr ⟨ch, rfl, henqueueing⟩
    · refine .inl ?_
      cases t with
      | pool j =>
        simp only [after] at hi
        split_ifs at hi
        · rw [Function.update_apply] at hi
          split_ifs at hi
          · exact .inl (.inr ⟨j, hi⟩)
          · exact .inr ⟨i, hi⟩
        · exact .inr ⟨i, hi⟩
      | _ => exact .inr ⟨i, hi⟩
  | @deleteWrapper j _ =>
    rcases h with hpending | ⟨i, hi⟩
    · exact .inl (.inl hpending)
    · change Function.update s.returning j none i = some fd at hi
      rw [Function.update_apply] at hi
      split_ifs at hi
      exact .inl (.inr ⟨i, hi⟩)
  | @notifyPool j fd' fd'' c visited hpc =>
    rcases h with (⟨d, hd⟩ | ⟨i, hi⟩) | hreturning
    · exact .inl (.inl (.inl ⟨d, hd⟩))
    · change (Function.update s.threads.pool j (.unlockFd fd' c) i).task = some fd at hi
      rw [Function.update_apply] at hi
      split_ifs at hi
      · exact .inl (.inl (.inr ⟨j, by rw [hpc]; exact hi⟩))
      · exact .inl (.inl (.inr ⟨i, hi⟩))
    · exact .inl (.inr hreturning)
  | _ => exact .inl h

/-- The destructor goes into its loop by the join, and then stays there. -/
theorem Move.joined {l : TeardownStep} (hm : Move n s l s') (h : s'.destructor.joined = true) :
    s.destructor.joined = true ∨
      s.destructor = .join ∧ s.threads.loop = .ended ∧ l = .destructor ∧ s'.threads = s.threads ∧
        s'.returning = s.returning := by
  cases hm with
  | thread | deleteWrapper => exact .inl h
  | stop => cases h
  | join hpc hloop => exact .inr ⟨hpc, hloop, rfl, rfl, rfl⟩
  | notifyPool _ hpc | notifyActive _ hpc | spurious hpc | visit hpc | done hpc | wait hpc
  | pass hpc | unlock hpc | closeEpoll hpc => exact .inl (by rw [hpc]; rfl)
  | lock hpc => exact .inl (by rcases hpc with hpc | hpc <;> rw [hpc] <;> rfl)

/-- `add_fd` has put in every entry. -/
theorem Move.keys {l : TeardownStep} (hm : Move n s l s')
    (h : ∀ fd, s.threads.fdInfos fd ≠ none → fd ∈ s.keys) (fd : Fd)
    (hentry : s'.threads.fdInfos fd ≠ none) : fd ∈ s'.keys := by
  cases hm with
  | @thread t ch threads _ hnext =>
    rcases eq_or_ne (s.threads.fdInfos fd) none with hnone | hold
    · obtain ⟨rfl, c, hpc⟩ := (next_changes hnext).inserted fd hnone hentry
      simp [after, hpc]
    · have hkey := h fd hold
      simp only [after]
      split
      · exact List.mem_cons_of_mem _ hkey
      · exact hkey
  | _ => exact h fd hentry

/-- The destructor goes on when the epoll thread has ended. -/
theorem Move.ended {l : TeardownStep} (hm : Move n s l s')
    (h : s.destructor.joined = true → s.threads.loop = .ended)
    (hjoined : s'.destructor.joined = true) : s'.threads.loop = .ended := by
  rcases hm.joined hjoined with hold | ⟨-, hloop, -, hthreads, -⟩
  · have hended := h hold
    cases hm with
    | @thread t ch threads _ hnext =>
      rcases eq_or_ne t .loop with rfl | hne
      · simp [State.next, State.loopNext, hended] at hnext
      · exact ((next_changes hnext).loop hne).trans hended
    | _ => exact hended
  · rw [hthreads, hloop]

/-- After the join the destructor waits for every task: each has an entry that is
still to be visited. -/
structure Watched (s : Teardown) : Prop where
  keys : ∀ fd, s.threads.fdInfos fd ≠ none → fd ∈ s.keys
  joined : s.destructor.joined = true → s.threads.loop = .ended
  registered : s.destructor.joined = true → ∀ fd, s.TaskPending fd → s.threads.fdInfos fd ≠ none
  visited : ∀ fd ∈ s.destructor.visited, ¬ s.TaskPending fd
  done : s.destructor.done = true → ∀ fd, ¬ s.TaskPending fd

/-- After the join no step makes a task. -/
theorem Watched.pending {l : TeardownStep} (h : s.Watched) (hjoined : s.destructor.joined = true)
    (hm : Move n s l s') {fd : Fd} (hpending : s'.TaskPending fd) : s.TaskPending fd := by
  rcases hm.pending hpending with hold | ⟨ch, -, henqueueing⟩
  · exact hold
  · rw [h.joined hjoined] at henqueueing
    exact henqueueing.elim

/-- After the join a connection with a task keeps its entry. -/
theorem Watched.registered_move {l : TeardownStep} (h : s.Watched) (hl : s.Waits l)
    (hm : Move n s l s') (hjoined : s'.destructor.joined = true) (fd : Fd)
    (hpending : s'.TaskPending fd) : s'.threads.fdInfos fd ≠ none := by
  intro hnone
  rcases hm.joined hjoined with hold | ⟨hpc, -, rfl, hthreads, hreturning⟩
  · have htask := h.pending hold hm hpending
    have hentry := h.registered hold fd htask
    cases hm with
    | thread _ hnext =>
      exact hl fd ⟨hold, (next_changes hnext).erased fd hentry hnone⟩ htask
    | _ => exact hentry hnone
  · rw [TaskPending, hthreads, hreturning] at hpending
    rw [hthreads] at hnone
    exact hl fd (.inl ⟨hpc, hnone⟩) hpending

/-- A connection that the destructor has left gets no new task. -/
theorem Watched.visited_move {l : TeardownStep} (h : s.Watched) (hl : s.Waits l)
    (hm : Move n s l s') (fd : Fd) (hfd : fd ∈ s'.destructor.visited) : ¬ s'.TaskPending fd := by
  have hold : fd ∈ s.destructor.visited → ¬ s'.TaskPending fd := fun hmem hpending =>
    h.visited fd hmem (h.pending (DestructorPc.joined_of_mem_visited hmem) hm hpending)
  cases hm with
  | thread | deleteWrapper => exact hold hfd
  | notifyPool _ hpc | notifyActive _ hpc | spurious hpc | visit hpc | wait hpc | unlock hpc =>
    exact hold (by rw [hpc]; exact hfd)
  | lock hpc => exact hold (by rcases hpc with hpc | hpc <;> rw [hpc] <;> exact hfd)
  | @pass fd' c visited hpc hrunning =>
    rcases List.mem_append.1 hfd with hmem | hmem
    · exact hold (by rw [hpc]; exact hmem)
    · obtain rfl := List.mem_singleton.1 hmem
      exact hl fd (.inr ⟨c, visited, hpc, hrunning⟩)
  | stop | join | done | closeEpoll => cases hfd

/-- At the end no connection has one. -/
theorem Watched.done_move {l : TeardownStep} (h : s.Watched) (hm : Move n s l s')
    (hdone : s'.destructor.done = true) (fd : Fd) : ¬ s'.TaskPending fd := by
  have hold : s.destructor.joined = true → s.destructor.done = true → ¬ s'.TaskPending fd :=
    fun hjoined hdone hpending => h.done hdone fd (h.pending hjoined hm hpending)
  cases hm with
  | thread | deleteWrapper => exact hold (DestructorPc.joined_of_done hdone) hdone
  | closeEpoll hpc => exact hold (by rw [hpc]; rfl) (by rw [hpc]; rfl)
  | @done visited hpc hall =>
    -- a task would have an entry, and the loop has visited all of them
    intro hpending
    have hentry := h.registered (by rw [hpc]; rfl) fd hpending
    rcases hall fd (h.keys fd hentry) with hnone | hmem
    · exact hentry hnone
    · exact h.visited fd (by rw [hpc]; exact hmem) hpending
  | _ => cases hdone

/-- Before the first connection. -/
theorem watched_start : start.Watched where
  registered h := by cases h
  keys fd h := absurd rfl h
  joined h := by cases h
  visited fd h := by cases h
  done h := by cases h

/-- **Every step that meets the condition keeps the watch.** -/
theorem Watched.move {l : TeardownStep} (h : s.Watched) (hl : s.Waits l) (hm : Move n s l s') :
    s'.Watched where
  registered := h.registered_move hl hm
  keys := hm.keys h.keys
  joined := hm.ended h.joined
  visited := h.visited_move hl hm
  done := h.done_move hm

/-- The watch holds in every state of such a run. -/
theorem watched_of_reachable (hs : (teardown n).Reachable Waits s) : s.Watched := by
  refine hs.invariant (fun s h => ?_) fun s s' l h hl hn => h.move hl (move_of_next hn)
  obtain rfl : s = .start := h
  exact watched_start

/-- No task of the worker is in the pool: none is queued, no worker executes one,
and every `EventWrapper` is deleted. -/
structure NothingLeft (s : Teardown) : Prop where
  tasks : s.threads.tasks = []
  pool : ∀ i, s.threads.pool i = .idle
  returning : ∀ i, s.returning i = none

/-- Where no connection has a task, nothing is left to run. -/
theorem nothingLeft_of_not_taskPending (h : ∀ fd, ¬ s.TaskPending fd) : s.NothingLeft where
  tasks := List.eq_nil_iff_forall_not_mem.2 fun task hmem =>
    h task.1 (.inl (.inl ⟨task.2, hmem⟩))
  pool i := PoolPc.eq_idle (Option.eq_none_iff_forall_ne_some.2 fun fd hfd =>
    h fd (.inl (.inr ⟨i, hfd⟩)))
  returning i := Option.eq_none_iff_forall_ne_some.2 fun fd hfd => h fd (.inr ⟨i, hfd⟩)

/-- **A destroyed worker leaves nothing in the pool**, in any run in which no
connection leaves the care of the destructor with a task. -/
theorem nothing_left (hs : (teardown n).Reachable Waits s) (hreturned : s.destructor = .returned) :
    s.NothingLeft :=
  nothingLeft_of_not_taskPending ((watched_of_reachable hs).done (by rw [hreturned]; rfl))

/-! ### A destructor that does not wait -/

/-- The epoll thread ends, and the destructor comes to the connection. -/
def untilCheck : List TeardownStep :=
  [.thread .loop .stop, .destructor, .destructor, .visit 5, .destructor]

/-- The destructor goes on to its end. -/
def untilReturned : List TeardownStep := [.destructor, .destructor, .destructor, .destructor]

/-- A test for `Waits` in a run with one worker in the pool: no thread moves after the
join, and there is no task when the destructor joins or goes on. -/
def waitsTest (s : Teardown) : TeardownStep → Bool
  | .thread _ _ => !s.destructor.joined
  | .destructor => match s.destructor with
    | .join | .check _ _ _ =>
      s.threads.tasks.isEmpty && (s.threads.pool 0).task == none && s.returning 0 == none
    | _ => true
  | _ => true

/-- The test says that the step meets the condition. -/
theorem waits_of_waitsTest {ok : Teardown → TeardownStep → Prop} {l : TeardownStep}
    (hs : (teardown 1).Reachable ok s) (h : s.waitsTest l = true) : s.Waits l := by
  intro fd hleaves
  cases l with
  | thread t ch =>
    obtain ⟨hjoined, -⟩ := hleaves
    simp [waitsTest, hjoined] at h
  | destructor =>
    obtain ⟨htasks, hpool, hreturning⟩ : s.threads.tasks = [] ∧ (s.threads.pool 0).task = none ∧
        s.returning 0 = none := by
      rcases hleaves with ⟨hpc, -⟩ | ⟨c, visited, hpc, -⟩ <;>
        simpa [waitsTest, hpc, and_assoc] using h
    exact not_taskPending htasks (idle_of_one hs hpool hreturning) fd
  | _ => exact hleaves.elim

/-- The task of the connection is done before the destructor comes to it. -/
theorem nothing_left_finished : ∃ s, (teardown 1).Reachable Waits s ∧
    s.destructor = .returned ∧ s.threads.finished 0 = [buildPackage 1 [35]] ∧ s.NothingLeft := by
  obtain ⟨s, hs, hp⟩ := (reachable_start 1 Waits).exists_of_runIf waitsTest
    (fun _ _ => waits_of_waitsTest)
    (ofThreads (firstChunk (buildPackage 1 [35]) ++ runTask) ++ [.deleteWrapper 0] ++ untilCheck ++
      untilReturned)
    (fun s => s.destructor == .returned && s.threads.finished 0 == [buildPackage 1 [35]])
    (by decide +kernel)
  simp only [Bool.and_eq_true, beq_iff_eq] at hp
  exact ⟨s, hs, hp.1, hp.2, nothing_left hs hp.1⟩

/-- **The destructor returns while the task is in the queue.** -/
theorem outlives : ∃ s, (teardown 1).Reachable anyStep s ∧ s.destructor = .returned ∧
    ¬ s.NothingLeft := by
  obtain ⟨s, hs, hp⟩ := (reachable_start 1 anyStep).exists_of_run
    (ofThreads (firstChunk (buildPackage 1 [35])) ++ untilCheck ++ untilReturned)
    (fun s => s.destructor == .returned && s.threads.tasks.length == 1) (fun _ _ _ => trivial)
    (by decide +kernel)
  simp only [Bool.and_eq_true, beq_iff_eq] at hp
  refine ⟨s, hs, hp.1, fun hnothing => ?_⟩
  have hlength := hp.2
  rw [hnothing.tasks] at hlength
  cases hlength

end Teardown

end Dispatch
end WeakAyas
