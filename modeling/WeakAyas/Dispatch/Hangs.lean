/-
# Why `~EpollWorker` hangs

`~EpollWorker` joins the epoll thread, whose `drain_epoll` goes on as long as events
are reported.  It reads nothing from a connection whose active thread runs, so unread
bytes of such a connection keep it from its end (`run_drain`).

Past the join, `~EpollWorker` falls asleep with `thread_running` set, and the active
thread that clears it notifies (`warned`).  So where all stands still and the destructor
sleeps, `thread_running` is set, for one of three reasons (`AtRest.cause`): an active
thread of the connection sleeps, it has deadlocked, or it has closed the connection.
-/

import WeakAyas.Dispatch.Rest
import WeakAyas.Dispatch.Retiring
import WeakAyas.Dispatch.SharedCond
import WeakAyas.Dispatch.TeardownWork

namespace WeakAyas
namespace Dispatch

open TransitionSystem

namespace Teardown

variable {n : ℕ} {s s' : Teardown} {P : Protocol}

theorem alone {ok : Teardown → TeardownStep → Prop} (hs : (teardown n).Reachable ok s) :
    Alone s.threads := by
  refine hs.invariant_with (I := fun s => Alone s.threads) (fun s hs => exists_refines hs)
    (fun s h i p c hi => ?_) fun s s' l ⟨P, h, hinv⟩ halone _ hn => ?_
  · obtain rfl : s = .start := h
    cases hi
  · cases move_of_next hn with
    | thread _ hnext => exact halone.next h hinv hnext
    | notifyPool => exact halone.congr rfl
    | notifyActive => exact halone.setActive rfl rfl
    | _ => exact halone

/-- The destructor falls asleep with `thread_running` set. -/
theorem runs_of_destructorNext (hn : s.destructorNext = some s') {fd : Fd} {c : ConnId}
    {visited : List Fd} (hpc : s'.destructor = .asleep fd c visited) : s'.threads.Runs c := by
  unfold destructorNext at hn
  cases hd : s.destructor with rw [hd] at hn
  | check fd' c' visited' =>
    cases hn
    change (if (s.threads.info c').threadRunning then _ else _) = _ at hpc
    split_ifs at hpc with hruns
    · cases hpc
      exact hruns
  | alive | join | next | lock | relock =>
    simp only at hn
    split_ifs at hn
    cases hn
    cases hpc
  | unlock | closeEpoll =>
    cases hn
    cases hpc
  | asleep | returned => cases hn

/-- **The destructor sleeps on a set `thread_running`**, or the thread that has cleared
it is about to notify. -/
theorem warned {ok : Teardown → TeardownStep → Prop} (hs : (teardown n).Reachable ok s) :
    ∀ fd c visited, s.destructor = .asleep fd c visited → s.threads.Warns c := by
  refine hs.invariant_with
    (I := fun s => ∀ fd c visited, s.destructor = .asleep fd c visited → s.threads.Warns c)
    (fun s hs => alone hs) (fun s h fd c visited hpc => ?_)
    fun s s' l halone hwarned _ hn fd c visited hpc => ?_
  · obtain rfl : s = .start := h
    cases hpc
  change s.next n l = some s' at hn
  cases l with
  | thread t ch =>
    cases move_of_next hn with
    | @thread _ _ threads hadmits hnext =>
      rcases (hwarned fd c visited hpc).next halone hnext with hwarns | ⟨hch, i, p, rfl, hi, hp⟩
      · exact hwarns
      · -- the notification would be for the destructor
        have hnotifies : s.threads.notifies (.active i) = some c := by
          cases p with
          | endNotify fd' c' =>
            cases hp
            simp only [State.notifies, hi]
          | _ => cases hp
        have hsleeps : s.destructor.sleepsOn = some c := congrArg DestructorPc.sleepsOn hpc
        rcases hadmits.2.2.1 hch with hnone | hne
        · rw [hnotifies] at hnone
          cases hnone
        · exact absurd (hnotifies.trans hsleeps.symm) hne
  | destructor =>
    simp only [next] at hn
    split_ifs at hn
    exact .inl (runs_of_destructorNext hn hpc)
  | deleteWrapper i =>
    cases move_of_next hn with
    | deleteWrapper => exact hwarned fd c visited hpc
  | notifyDestructor | spurious | visit => cases move_of_next hn <;> cases hpc

/-- Nobody retires at rest. -/
theorem AtRest.runs (h : Refines s.threads.obs P) (hrest : s.AtRest) {c : ConnId}
    (hwarns : s.threads.Warns c) : s.threads.Runs c := by
  refine hwarns.resolve_right ?_
  rintro ⟨i, p, hi, hp⟩
  have hnone := hrest.notifies h (.active i)
  cases p with
  | endNotify fd' c' => simp [State.notifies, hi] at hnone
  | _ => cases hp

/-- **Why `thread_running` stays set**: an active thread sleeps for a task of the
connection, or it has deadlocked, or the connection has no entry any more. -/
theorem AtRest.cause (h : Refines s.threads.obs P) (hrest : s.AtRest) {c : ConnId}
    (hruns : s.threads.Runs c) : (∃ i fd, s.threads.waits i = some (fd, c)) ∨
      (∃ d, s.threads.HasInHand c d) ∨ ∀ fd, s.threads.fdInfos fd ≠ some c := by
  by_cases hentry : ∃ fd, s.threads.fdInfos fd = some c
  · obtain ⟨fd, hfd⟩ := hentry
    obtain ⟨σ, hσ, rfl⟩ := h.slot_of_fdInfos hfd
    have hrunning : σ.running = true := (h.running fd σ hσ).symm.trans hruns
    rcases hdriver : σ.driver with _ | ⟨t, b⟩
    · rw [Slot.running, hdriver] at hrunning
      cases hrunning
    have hdrives : (s.threads.obs.view t).drives = some (fd, b) :=
      (h.driver t fd b).2 (by simp [hσ, hdriver])
    rcases hrest.rests t with hr | hlocks
    · rcases view_of_rests hr with hv | ⟨i, fd', c₁, c', rfl, hi⟩
      · rw [hv] at hdrives
        cases hdrives
      · have hv := view_active hi
        rw [hv] at hdrives
        cases hdrives
        cases h.ptr_eq hv hσ (.inl ⟨_, rfl⟩) (p := some c') (by simp [ActivePc.view])
        exact .inl ⟨i, fd, by rw [State.waits, hi]; rfl⟩
    · obtain ⟨i, fd', c₁, c', d, c'', rfl, hi⟩ := (selfLocks_iff_of_refines h t).1 hlocks
      have hv := view_active hi
      rw [hv] at hdrives
      cases hdrives
      cases h.ptr_eq hv hσ (.inl ⟨_, rfl⟩) (p := some c') (by simp [ActivePc.view])
      exact .inr (.inl ⟨d, i, fd, c₁, c'', hi⟩)
  · push Not at hentry
    exact .inr (.inr hentry)

/-! ### Before the join -/

/-- The mark that the epoll thread leaves for an active thread. -/
def setNeedactive (s : Teardown) (c : ConnId) : Teardown :=
  { s with threads := s.threads.setNeedactive c true }

/-- The threads of a worker with one thread in its pool are at rest. -/
def quiet (s : Teardown) : Bool :=
  s.threads.acceptor == .accept && s.threads.loop == .ended && s.threads.tasks.isEmpty &&
    (s.threads.pool 0).task == none && s.returning 0 == none &&
    s.threads.active.all ActivePc.rests

theorem atRest_of_quiet {ok : Teardown → TeardownStep → Prop} (hs : (teardown 1).Reachable ok s)
    (h : s.quiet = true) : s.AtRest := by
  simp only [quiet, Bool.and_eq_true, beq_iff_eq, List.isEmpty_iff, List.all_eq_true] at h
  obtain ⟨⟨⟨⟨⟨hacceptor, hloop⟩, htasks⟩, hpool⟩, hreturning⟩, hactive⟩ := h
  have hidle := idle_of_one hs hpool hreturning
  refine ⟨hloop, htasks, fun i => (hidle i).2, fun t => .inl ?_⟩
  cases t with
  | acceptor => exact hacceptor
  | loop => exact .inr hloop
  | pool i => exact (hidle i).1
  | active i => exact fun p hp => hactive p (List.mem_of_getElem? hp)

end Teardown

end Dispatch
end WeakAyas
