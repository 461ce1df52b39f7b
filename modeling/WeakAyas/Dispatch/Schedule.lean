/-
# The serial schedule is a run of the worker

`serve` passes over the threads: one chunk after the other goes from `handle_event`
through the thread pool.  Here every turn of it is a run of the steps of `worker`, on the
first connection and descriptor 5: the epoll thread reads the chunk and enqueues it
(`run_nextChunk`), a pool worker parses it and hands it on (`run_runTask`) or returns early
(`run_rejectTask`), and the event after an early return only starts an active thread
(`run_secondEvent`).  So what `serve` computes is what the threads come to
(`serve_reachable`).
-/

import WeakAyas.Dispatch.Serial
import WeakAyas.Dispatch.Threads

namespace WeakAyas
namespace Dispatch

open TransitionSystem

/-- The package that is handed to `handle_request` from a chunk. -/
def packageOf (d : Bytes) : Option SocketPackage :=
  match parseSockpackage d with
  | .ok pkg => pkg
  | .error _ => none

/-- The threads rest between two turns of the serial schedule, with the flags of the
connection and what was handled for it as `c` says; `tasks` are left for the pool. -/
structure Between (s : State) (c : Connection) (tasks : List (Fd × Bytes)) : Prop where
  terminated : s.terminated = false
  names : s.socks 5 = some 0 ∧ s.fdInfos 5 = some 0
  free : s.fdMap = none ∧ (s.info 0).fdMutex = none
  idle : s.loop = .epollWait ∧ s.pool 0 = .idle
  active : c.threadRunning = false → s.active = []
  tasks : s.tasks = tasks
  flags : (s.info 0).fdInthreadpool = c.fdInthreadpool ∧
    (s.info 0).threadRunning = c.threadRunning
  handled : (s.finished 0).filterMap packageOf = c.handled

variable {n : ℕ} {s : State} {c c' : Connection} {d : Bytes}

/-- After `add_fd` of the first connection. -/
theorem run_accepted : ∃ s, (worker n).run .start
    ((.acceptor, .accepted 5) :: List.replicate 3 (.acceptor, .go)) = some s ∧
      Between s .fresh [] ∧ s.reads 0 = [] :=
  ⟨_, rfl, ⟨rfl, ⟨rfl, rfl⟩, ⟨rfl, rfl⟩, ⟨rfl, rfl⟩, fun _ => rfl, rfl, ⟨rfl, rfl⟩, rfl⟩, rfl⟩

/-- `handle_event` reads the chunk, sets the flag and enqueues the task. -/
theorem run_nextChunk (h : Between s c []) (hp : c.fdInthreadpool = false)
    (ht : c.threadRunning = false) (hd : 1 ≤ d.length ∧ d.length ≤ maxBuffersize) :
    ∃ s', (worker n).run s (nextChunk d) = some s' ∧
      Between s' { c with fdInthreadpool := true } [(5, d)] ∧ s'.reads 0 = s.reads 0 ++ [d] := by
  obtain ⟨hterm, ⟨hsock, hinfos⟩, ⟨hmap, hmutex⟩, ⟨hloop, hpool⟩, hactive, htasks, ⟨hin, hrun⟩,
    hhandled⟩ := h
  rw [hp] at hin
  rw [ht] at hrun
  refine ⟨_, by
    simp only [nextChunk, List.replicate, List.cons_append, List.nil_append, run, worker,
      State.next, State.loopNext, State.setLoop, State.lockMap, State.setFdMap, State.receive,
      State.lockFd, State.pushRead, State.setFdMutex, State.setInfo, State.setFdInthreadpool,
      State.setTasks, Option.map_some, hterm, hsock, hinfos, hmap, hmutex, hloop, hin, hrun,
      htasks, hd, if_true, if_false, Bool.false_eq_true, Function.update_self, and_self]
    rfl, ?_, by simp⟩
  constructor <;> simp [hsock, hinfos, hpool, ht, hactive ht, hhandled]

/-- `enqueue_event_wrapper_nonstatic` on a chunk with a package. -/
theorem run_runTask {pkg : SocketPackage} (hn : 0 < n) (h : Between s c [(5, d)])
    (ht : c.threadRunning = false) (hd : parseSockpackage d = .ok (some pkg)) :
    ∃ s', (worker n).run s runTask = some s' ∧
      Between s' { c with handled := c.handled ++ [pkg], fdInthreadpool := false } [] ∧
        s'.reads 0 = s.reads 0 := by
  obtain ⟨hterm, ⟨hsock, hinfos⟩, ⟨hmap, hmutex⟩, ⟨hloop, hpool⟩, hactive, htasks, ⟨-, hrun⟩,
    hhandled⟩ := h
  refine ⟨_, by
    simp only [runTask, List.replicate, List.cons_append, List.nil_append, run, worker,
      State.next, State.poolNext, State.setPool, State.lockMap, State.setFdMap, State.lockFd,
      State.pushFinished, State.setFdMutex, State.setInfo, State.setFdInthreadpool,
      State.setTasks, State.notifyOne, Option.map_some, hterm, hinfos, hmap, hmutex, hpool,
      htasks, hd, hn, hactive ht, List.not_mem_nil, false_imp_iff, implies_true, if_true,
      if_false, Bool.false_eq_true, Function.update_self]
    rfl, ?_, by simp⟩
  constructor <;> simp [hsock, hinfos, hloop, hrun, ht, hhandled, packageOf, hd]

/-- A pool worker runs a task whose chunk has no package. -/
def rejectTask : List (Tid × Choice) := List.replicate 7 (.pool 0, .go)

/-- `enqueue_event_wrapper_nonstatic` on a chunk without a package. -/
theorem run_rejectTask (hn : 0 < n) (h : Between s c [(5, d)]) (ht : c.threadRunning = false)
    (hd : parseSockpackage d = .ok none) :
    ∃ s', (worker n).run s rejectTask = some s' ∧ Between s' c [] ∧
      s'.reads 0 = s.reads 0 := by
  obtain ⟨hterm, ⟨hsock, hinfos⟩, ⟨hmap, hmutex⟩, ⟨hloop, hpool⟩, hactive, htasks, ⟨hin, hrun⟩,
    hhandled⟩ := h
  refine ⟨_, by
    simp only [rejectTask, List.replicate, run, worker, State.next, State.poolNext,
      State.setPool, State.lockMap, State.setFdMap, State.lockFd, State.pushFinished,
      State.setFdMutex, State.setInfo, State.setTasks, Option.map_some, hterm, hinfos, hmap,
      hmutex, hpool, htasks, hd, hn, if_true, if_false, Bool.false_eq_true, Function.update_self]
    rfl, ?_, by simp⟩
  constructor <;> simp [hsock, hinfos, hloop, hin, hrun, ht, hactive ht, hhandled, packageOf, hd]

/-- The event after an early return finds the flag set and starts the active thread. -/
theorem run_secondEvent (h : Between s c []) (hp : c.fdInthreadpool = true)
    (ht : c.threadRunning = false) :
    ∃ s', (worker n).run s secondEvent = some s' ∧
      Between s' { c with threadRunning := true } [] ∧ s'.reads 0 = s.reads 0 := by
  obtain ⟨hterm, ⟨hsock, hinfos⟩, ⟨hmap, hmutex⟩, ⟨hloop, hpool⟩, hactive, htasks, ⟨hin, hrun⟩,
    hhandled⟩ := h
  rw [hp] at hin
  rw [ht] at hrun
  refine ⟨_, by
    simp only [secondEvent, List.replicate, run, worker, State.next, State.loopNext,
      State.setLoop, State.lockMap, State.setFdMap, State.setInfo, State.setNeedactive,
      State.setThreadRunning, State.pushActive, Option.map_some, hterm, hinfos, hmap, hloop,
      hin, hrun, if_true, if_false, Bool.false_eq_true, Function.update_self]
    rfl, ?_, by simp⟩
  constructor <;> simp [hsock, hinfos, hmutex, hpool, hp, htasks, hhandled]

/-- What `serve` computes for the next chunks, the threads come to from where they rest. -/
theorem exists_between (hn : 0 < n) (chunks : List Bytes)
    (hpos : ∀ d ∈ chunks, 1 ≤ d.length ∧ d.length ≤ maxBuffersize)
    (hs : (worker n).Reachable anyStep s) (h : Between s c []) (hserve : serve c chunks = .ok c') :
    ∃ s' pre, (worker n).Reachable anyStep s' ∧ Between s' c' [] ∧ pre <+: chunks ∧
      s'.reads 0 = s.reads 0 ++ pre := by
  have hnil : ∀ ds : List Bytes, [] <+: ds := fun _ => List.nil_prefix
  induction chunks generalizing s c with
  | nil =>
    obtain rfl := Except.ok.inj hserve
    exact ⟨s, [], hs, h, hnil _, by simp⟩
  | cons d chunks ih =>
    rw [serve] at hserve
    by_cases ht : c.threadRunning = true
    · -- the active thread waits, and nothing is read
      rw [if_pos ht] at hserve
      obtain rfl := Except.ok.inj hserve
      exact ⟨s, [], hs, h, hnil _, by simp⟩
    have ht := Bool.eq_false_iff.2 ht
    rw [if_neg (by simp [ht])] at hserve
    by_cases hp : c.fdInthreadpool = true
    · rw [if_pos hp] at hserve
      obtain rfl := Except.ok.inj hserve
      obtain ⟨t, hrun, hbetween, hreads⟩ := run_secondEvent h hp ht
      exact ⟨t, [], hs.of_run _ hrun, hbetween, hnil _, by simp [hreads]⟩
    have hp := Bool.eq_false_iff.2 hp
    rw [if_neg (by simp [hp])] at hserve
    obtain ⟨t, hrun, hqueued, hread⟩ :=
      run_nextChunk (n := n) h hp ht (hpos d List.mem_cons_self)
    have ht' := hs.of_run _ hrun
    have hrest := fun d' hd' => hpos d' (List.mem_cons_of_mem d hd')
    rcases handleEvent_cases c d with ⟨hd, he⟩ | ⟨pkg, hd, he⟩ <;> rw [he] at hserve
    · obtain ⟨u, hrun, hbetween, hreads⟩ := run_rejectTask hn hqueued ht hd
      obtain ⟨s', pre, hs', h', hpre, hreads'⟩ := ih hrest (ht'.of_run _ hrun) hbetween hserve
      exact ⟨s', d :: pre, hs', h', List.cons_prefix_cons.2 ⟨rfl, hpre⟩,
        by simp [hreads', hreads, hread]⟩
    · obtain ⟨u, hrun, hbetween, hreads⟩ := run_runTask hn hqueued ht hd
      obtain ⟨s', pre, hs', h', hpre, hreads'⟩ := ih hrest (ht'.of_run _ hrun) hbetween hserve
      exact ⟨s', d :: pre, hs', h', List.cons_prefix_cons.2 ⟨rfl, hpre⟩,
        by simp [hreads', hreads, hread]⟩

/-- **The serial schedule is a run of the worker.**  For all chunks, some run of the
threads reads a prefix of them from the connection, has its two flags as `serve` leaves
them, and has handed to `handle_request` the packages that `serve` lists. -/
theorem serve_reachable (hn : 0 < n) {chunks : List Bytes}
    (hpos : ∀ d ∈ chunks, 1 ≤ d.length ∧ d.length ≤ maxBuffersize)
    (hserve : serve .fresh chunks = .ok c) :
    ∃ s, (worker n).Reachable anyStep s ∧ s.reads 0 <+: chunks ∧
      (s.info 0).fdInthreadpool = c.fdInthreadpool ∧
      (s.info 0).threadRunning = c.threadRunning ∧
      (s.finished 0).filterMap packageOf = c.handled := by
  obtain ⟨s, hrun, hbetween, hreads⟩ := run_accepted (n := n)
  obtain ⟨s', pre, hs, h, hpre, hread⟩ :=
    exists_between hn chunks hpos ((reachable_start n anyStep).of_run _ hrun) hbetween hserve
  rw [hreads, List.nil_append] at hread
  exact ⟨s', hs, hread ▸ hpre, h.flags.1, h.flags.2, h.handled⟩

end Dispatch
end WeakAyas
