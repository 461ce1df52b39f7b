/-
# A worker between two events

Between two events a worker takes only finitely many steps, and stands still where
there is nothing left to do or somebody waits for ever (`worker_comes_to_rest`).  After
an orderly run there is nothing left to do (`rests_when_all_done`).

The epoll is level-triggered, and the epoll thread reads nothing from a connection
whose active thread runs.  So where such a thread waits for ever and bytes lie unread,
the epoll thread takes up one report after the other and stays where it is
(`run_spin`).
-/

import WeakAyas.Dispatch.Standstill
import WeakAyas.Dispatch.WorkSteps

namespace WeakAyas
namespace Dispatch

open TransitionSystem

variable {n : ℕ} {s s' : State}

/-! ### Reports without effect -/

/-- A worker with one thread in its pool is at rest. -/
def State.quiet (s : State) : Bool :=
  s.acceptor == .accept && s.loop == .epollWait && s.tasks.isEmpty && (s.pool 0).task == none &&
    s.active.all ActivePc.rests

theorem standstill_of_quiet (hs : (worker 1).Reachable anyStep s) (h : s.quiet = true) :
    Standstill 1 s := by
  simp only [State.quiet, Bool.and_eq_true, beq_iff_eq, List.isEmpty_iff, List.all_eq_true] at h
  obtain ⟨⟨⟨⟨hacceptor, hloop⟩, htasks⟩, hpool⟩, hactive⟩ := h
  refine (standstill_iff Nat.one_pos hs).2 ⟨htasks, fun t => .inl ?_⟩
  cases t with
  | acceptor => exact hacceptor
  | loop => exact .inl hloop
  | pool i =>
    rcases i with _ | i
    · change s.pool 0 = .idle
      cases hpc : s.pool 0 with
      | idle => rfl
      | _ =>
        rw [hpc] at hpool
        cases hpool
    · exact idle_of_le hs (i + 1) (Nat.le_add_left 1 i)
  | active i => exact fun p hp => hactive p (List.mem_of_getElem? hp)

/-- **Without rejected chunks, throwing handlers and data for active threads a worker
rests exactly when all is done**: everything read is finished, the active threads
have ended, no mutex is held and no open connection has a flag set. -/
theorem rests_when_all_done (hn : 0 < n) (hs : (worker n).Reachable Orderly s) :
    Standstill n s ↔ Done s :=
  ⟨done_of_standstill hn hs,
    fun h => (standstill_iff hn hs).2 ⟨h.tasks, fun t => .inl (h.rests t)⟩⟩

/-- A test for `Orderly`. -/
def isOrderly (s : State) (l : Tid × Choice) : Bool :=
  match l.1, l.2 with
  | .pool _, .thrown => false
  | .pool i, _ => match s.pool i with
    | .parse _ d _ => match parseSockpackage d with
      | .ok none => false
      | _ => true
    | _ => true
  | .active _, .read (.data _) => false
  | _, _ => true

theorem orderly_of_isOrderly {l : Tid × Choice} (h : isOrderly s l = true) : Orderly s l := by
  obtain ⟨t, ch⟩ := l
  constructor
  · rintro ⟨i, rfl, ⟨fd, d, c, hpc, hparse⟩ | ⟨⟨fd, c, pkg, hpc⟩, rfl⟩⟩
    · cases ch <;> simp [isOrderly, hpc, hparse] at h
    · cases h
  · rintro ⟨i, fd, c, c', d, rfl, -, rfl⟩
    cases h

/-- Two events of a connection: one is for the pool, and the active thread that the
other starts finds nothing to read. -/
theorem rests_when_all_done_twice :
    ∃ s, (worker 1).Reachable Orderly s ∧ Standstill 1 s ∧ s.active.length = 1 ∧
      s.reads 0 = [buildPackage 1 [35]] ∧ Done s := by
  obtain ⟨s, hs, hp⟩ := (reachable_start 1 Orderly).exists_of_runIf isOrderly
    (fun _ _ _ h => orderly_of_isOrderly h)
    (firstChunk (buildPackage 1 [35]) ++ secondEvent ++ runTask ++
      List.replicate 9 (.active 0, .go) ++ (.active 0, .read .eagain) ::
      List.replicate 5 (.active 0, .go) ++ [(.active 0, .wake none), (.active 0, .go)])
    (fun s => s.quiet && s.active.length == 1 && s.reads 0 == [buildPackage 1 [35]])
    (by decide +kernel)
  simp only [Bool.and_eq_true, beq_iff_eq] at hp
  obtain ⟨⟨hquiet, hlength⟩, hreads⟩ := hp
  have hstill := standstill_of_quiet hs.any hquiet
  exact ⟨s, hs, hstill, hlength, hreads, (rests_when_all_done Nat.one_pos hs).1 hstill⟩

end Dispatch
end WeakAyas
