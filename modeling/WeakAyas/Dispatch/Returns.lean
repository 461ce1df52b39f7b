/-
# When `~EpollWorker` returns

`~EpollWorker` returns, and nothing of the worker is left, in every run that keeps
clear of the known troubles: a task that leaves its flag behind, a chunk read by an
active thread, a notification that wakes the destructor in the place of an active
thread, and an active thread that closes a connection (`destructor_returns`).  Each of
these has a run in which the destructor hangs.
-/

import WeakAyas.Dispatch.Hangs
import WeakAyas.Dispatch.Rest

namespace WeakAyas
namespace Dispatch

open TransitionSystem

/-- The entry of `fd_infos` that the destructor has come to. -/
def DestructorPc.entry : DestructorPc → Option (Fd × ConnId)
  | lock fd c _ | check fd c _ | asleep fd c _ | relock fd c _ | unlock fd c _ => some (fd, c)
  | alive | join | next _ | closeEpoll | returned => none

/-- The destructor visits connections after the join only. -/
theorem DestructorPc.joined_of_entry {d : DestructorPc} (h : d.entry ≠ none) : d.joined = true := by
  cases d <;> first | rfl | exact absurd rfl h

namespace Teardown

/-- The step keeps clear of what makes the destructor hang. -/
structure Clean (s : Teardown) (l : TeardownStep) : Prop where
  orderly : ∀ t ch, l = .thread t ch → Orderly s.threads (t, ch)
  directed : s.Directed l
  keepsOpen : ∀ i ch fd, l = .thread (.active i) ch → ¬ s.threads.Erases fd (.active i)

/-- The destructor has returned, and nothing is left: no task, no thread, and no chunk
that has been read and not finished. -/
structure Over (s : Teardown) : Prop where
  returned : s.destructor = .returned
  nothing : s.NothingLeft
  loop : s.threads.loop = .ended
  active : ∀ p ∈ s.threads.active, p = .ended
  finished : ∀ c, s.threads.finished c = s.threads.reads c

variable {n : ℕ} {s s' : Teardown} {P : Protocol}

/-- The epoll thread has ended once it is joined. -/
theorem ended {ok : Teardown → TeardownStep → Prop} (hs : (teardown n).Reachable ok s) :
    s.destructor.joined = true → s.threads.loop = .ended := by
  refine hs.invariant (I := fun s => s.destructor.joined = true → s.threads.loop = .ended)
    (fun s h hjoined => ?_) fun s s' l h _ hn => (move_of_next hn).ended h
  obtain rfl : s = .start := h
  cases hjoined

/-- **The entry that the destructor has come to stays**, where no active thread closes
its connection. -/
theorem fdInfos_of_entry (hs : (teardown n).Reachable Clean s) :
    ∀ fd c, s.destructor.entry = some (fd, c) → s.threads.fdInfos fd = some c := by
  refine hs.invariant_with
    (I := fun s => ∀ fd c, s.destructor.entry = some (fd, c) → s.threads.fdInfos fd = some c)
    (fun s hs => ended hs) (fun s h fd c hentry => ?_)
    fun s s' l hended h hclean hn fd c hentry => ?_
  · obtain rfl : s = .start := h
    cases hentry
  change s.next n l = some s' at hn
  cases move_of_next hn with
  | @thread t ch threads hadmits hnext =>
    have hjoined : s.destructor.joined = true :=
      DestructorPc.joined_of_entry (by rw [show s.destructor.entry = _ from hentry]; simp)
    have ht : t ≠ .acceptor := fun ht => by
      rw [hadmits.1 ht] at hjoined
      cases hjoined
    rcases (next_steady hnext ht).entry fd c (h fd c hentry) with hkept | herases
    · exact hkept
    · -- the epoll thread has ended, and no active thread closes
      cases t with
      | acceptor | pool => exact herases.elim
      | loop =>
        obtain ⟨c', hloop⟩ := herases
        rw [hended hjoined] at hloop
        cases hloop
      | active i => exact absurd herases (hclean.keepsOpen i ch fd rfl)
  | deleteWrapper => exact h fd c hentry
  | visit _ hc =>
    cases hentry
    exact hc
  | notifyPool _ hpc | notifyActive _ hpc | spurious hpc | wait hpc | pass hpc =>
    exact h fd c (by rw [hpc]; exact hentry)
  | lock hpc => exact h fd c (by rcases hpc with hpc | hpc <;> rw [hpc] <;> exact hentry)
  | stop | join | done | unlock | closeEpoll => cases hentry

/-- The threads of a clean run refine an orderly protocol. -/
theorem exists_orderly (hs : (teardown n).Reachable Clean s) :
    ∃ P, Refines s.threads.obs P ∧ P.Inv ∧ P.Orderly := by
  have hmove : ∀ s t ch m, Clean s (.thread t ch) → Permits s.threads t ch m → m.Orderly :=
    fun s t ch m hclean hm => (hclean.orderly t ch rfl).move hm
  obtain ⟨P, hP, h⟩ := (simulation n hmove).reachable hs
  exact ⟨P, h, inv_of_reachable hP, orderly_of_reachable hP⟩

/-- At rest nobody has a task. -/
theorem AtRest.not_pending (h : Refines s.threads.obs P) (hrest : s.AtRest) (fd : Fd) :
    ¬ s.threads.TaskPending fd ∧ ¬ s.threads.loop.Enqueueing fd := by
  refine ⟨?_, fun hloop => by rw [hrest.loop] at hloop; exact hloop⟩
  rintro (⟨d, hd⟩ | ⟨i, hi⟩)
  · rw [hrest.tasks] at hd
    cases hd
  · rcases hrest.rests (.pool i) with hidle | hlocks
    · rw [show s.threads.pool i = .idle from hidle] at hi
      cases hi
    · obtain ⟨j, -, -, -, -, -, heq, -⟩ := (selfLocks_iff_of_refines h _).1 hlocks
      cases heq

/-- After a clean run no thread has deadlocked. -/
theorem no_deadlock (hs : (teardown n).Reachable Clean s) (t : Tid) :
    ¬ s.threads.SelfLocks t := by
  obtain ⟨P, h, -, horderly⟩ := exists_orderly hs
  exact not_selfLocks_of_owner h (fun fd σ hσ => (horderly fd σ hσ).2) t

/-- In a clean run no active thread waits for its own `fd_mutex` with a chunk in hand. -/
theorem not_hasInHand (hs : (teardown n).Reachable Clean s) (c : ConnId) (d : Bytes) :
    ¬ s.threads.HasInHand c d := by
  obtain ⟨P, h, -⟩ := exists_orderly hs
  rintro ⟨i, fd, c₁, c'', hi⟩
  exact no_deadlock hs (.active i) ⟨c'', by rw [State.acquires, hi]; rfl, enqLockFd_holds h hi⟩

/-- After a clean run nobody waits for a task at rest. -/
theorem AtRest.not_waits (hs : (teardown n).Reachable Clean s) (hrest : s.AtRest) (i : ℕ)
    (fd : Fd) (c : ConnId) : s.threads.waits i ≠ some (fd, c) := by
  intro hw
  obtain ⟨P, h, -, horderly⟩ := exists_orderly hs
  have hdirected := hs.mono fun _ _ hclean => hclean.directed
  obtain ⟨hno, hnoLoop⟩ := hrest.not_pending h fd
  rcases heard_of_reachable hdirected i fd c hw with hflag | ⟨j, hj⟩
  · obtain ⟨σ, hσ, rfl, -⟩ := slot_of_waits h hw
    exact (taskPending_or_enqueueing h hσ (horderly fd σ hσ).1
      ((h.flag fd σ hσ).symm.trans hflag)).elim hno hnoLoop
  · exact hno (.inr ⟨j, by rw [hj]; rfl⟩)

/-- **After a clean run the destructor does not hang.** -/
theorem AtRest.not_hangs (hs : (teardown n).Reachable Clean s) (hrest : s.AtRest) : ¬ s.Hangs := by
  obtain ⟨P, h, -⟩ := exists_orderly hs
  rintro ⟨fd, c, visited, hpc | ⟨-, d, hd⟩⟩
  · have hruns := hrest.runs h (warned hs fd c visited hpc)
    rcases hrest.cause h hruns with ⟨i, fd', hw⟩ | ⟨d, hd⟩ | hno
    · exact hrest.not_waits hs i fd' c hw
    · exact not_hasInHand hs c d hd
    · exact hno fd (fdInfos_of_entry hs fd c (by rw [hpc]; rfl))
  · exact not_hasInHand hs c d hd

/-- At rest after a clean run, the active threads have ended. -/
theorem AtRest.active (hs : (teardown n).Reachable Clean s) (hrest : s.AtRest) :
    ∀ p ∈ s.threads.active, p = .ended := by
  intro p hp
  obtain ⟨i, hi⟩ := List.mem_iff_getElem?.1 hp
  have hr := (hrest.rests (.active i)).resolve_right (no_deadlock hs _) p hi
  cases p with
  | ended => rfl
  | asleep fd c c' => exact absurd (by rw [State.waits, hi]; rfl) (hrest.not_waits hs i fd c')
  | _ => cases hr

/-- **`~EpollWorker` returns with everything done**: after a clean run, threads and
destructor stand still exactly when the destructor has returned, nothing of the worker
is left in the pool, its threads have ended, and every chunk read is finished. -/
theorem destructor_returns (hn : 0 < n) (hs : (teardown n).Reachable Clean s)
    (hcalled : s.destructor ≠ .alive) : Standstill n s ↔ s.Over := by
  obtain ⟨P, h, hinv, -⟩ := exists_orderly hs
  constructor
  · intro hstill
    obtain ⟨hrest, hdestructor⟩ := (stands_iff hn hs hcalled).1 hstill
    have hactive := hrest.active hs
    refine ⟨hdestructor.resolve_right (hrest.not_hangs hs), ⟨hrest.tasks, fun i => ?_,
      hrest.returning⟩, hrest.loop, hactive, fun c => ?_⟩
    · exact (hrest.rests (.pool i)).resolve_right (no_deadlock hs _)
    · rcases reads_of_rests h hinv hrest.tasks hrest.rests c with heq | ⟨d, hd, -⟩
      · exact heq.symm
      · exact absurd hd (not_hasInHand hs c d)
  · intro hover
    refine (stands_iff hn hs hcalled).2 ⟨⟨hover.loop, hover.nothing.tasks,
      hover.nothing.returning, fun t => .inl ?_⟩, .inl hover.returned⟩
    cases t with
    | acceptor => exact accepts hs hcalled
    | loop => exact .inr hover.loop
    | pool i => exact hover.nothing.pool i
    | active i =>
      intro p hp
      rw [hover.active p (List.mem_of_getElem? hp)]
      rfl

/-- A test for `Clean`. -/
def isClean (s : Teardown) : TeardownStep → Bool
  | .thread t ch => isOrderly s.threads (t, ch) && match t with
    | .active i => match s.threads.active[i]? with
      | some (.closeFd _ _ .erase) => false
      | _ => true
    | _ => true
  | .notifyDestructor (.pool _) => false
  | _ => true

/-- The test of a step. -/
theorem clean_of_isClean {l : TeardownStep} (h : s.isClean l = true) : s.Clean l where
  orderly t ch hl := by
    subst hl
    exact orderly_of_isOrderly (Bool.and_eq_true_iff.1 h).1
  directed := by
    rintro ⟨i, c, rfl, -⟩
    cases h
  keepsOpen i ch fd hl := by
    subst hl
    rintro ⟨c, hi⟩
    simp [isClean, hi] at h

/-- The task wakes the active thread, which finds nothing to read and wakes the
destructor. -/
theorem destructor_returns_woken : ∃ s, (teardown 1).Reachable Clean s ∧ Standstill 1 s ∧
    s.threads.active.length = 1 ∧ s.threads.reads 0 = [buildPackage 1 [35]] ∧ s.Over := by
  obtain ⟨s, hs, hp⟩ := (reachable_start 1 Clean).exists_of_runIf isClean
    (fun _ _ _ => clean_of_isClean)
    (bothAsleep (buildPackage 1 [35]) ++ ofThreads ([(.pool 0, .wake (some 0)), (.pool 0, .go)]) ++
      [.deleteWrapper 0] ++ ofThreads (List.replicate 2 (.active 0, .go) ++
      (.active 0, .read .eagain) :: List.replicate 5 (.active 0, .go)) ++
      [.notifyDestructor (.active 0), .thread (.active 0) .go] ++ List.replicate 5 .destructor)
    (fun s => s.quiet && s.destructor == .returned && s.threads.active.length == 1 &&
      s.threads.reads 0 == [buildPackage 1 [35]])
    (by decide +kernel)
  simp only [Bool.and_eq_true, beq_iff_eq] at hp
  obtain ⟨⟨⟨hquiet, hpc⟩, hlength⟩, hreads⟩ := hp
  have hcalled : s.destructor ≠ .alive := by simp [hpc]
  have hstill := (stands_iff Nat.one_pos hs hcalled).2 ⟨atRest_of_quiet hs hquiet, .inl hpc⟩
  exact ⟨s, hs, hstill, hlength, hreads, (destructor_returns Nat.one_pos hs hcalled).1 hstill⟩

end Teardown

end Dispatch
end WeakAyas
