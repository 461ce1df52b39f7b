/-
# `fd_inthreadpool` tells the truth

The epoll thread sets the flag before it enqueues a task, and the task clears it
when `handle_request` returns.  A task that ends in another way leaves it set:
`parse_sockpackage` rejects its chunk, or its handler throws.  (That the task
does not find its connection is the third way, which is never taken.)

Without these two, a connection whose flag is set has a task, and so has one for
which an active thread waits.
-/

import WeakAyas.Dispatch.Waiting

namespace WeakAyas
namespace Dispatch

open TransitionSystem

/-- The descriptor of the task that a worker executes. -/
def PoolPc.task : PoolPc → Option Fd
  | idle => none
  | lookup fd _ _ | lockFd fd _ _ | parse fd _ _ | handleRequest fd _ _ | clearInthreadpool fd _
  | notify fd _ | unlockFd fd _ => some fd

/-- A task of the descriptor is queued or executing. -/
def State.TaskPending (s : State) (fd : Fd) : Prop :=
  (∃ d, (fd, d) ∈ s.tasks) ∨ ∃ i, (s.pool i).task = some fd

/-- The epoll thread has set the flag, and is about to enqueue the task. -/
def LoopPc.Enqueueing (fd : Fd) : LoopPc → Prop
  | unlockFd fd' _ _ _ | enqueue fd' _ _ _ => fd' = fd
  | _ => False

/-- The step does not end a task on a path that leaves the flag behind. -/
def Clears (s : State) (l : Tid × Choice) : Prop := ¬ Freezes s l.1 l.2

/-- A connection that is accepted has no chunk in the pool. -/
theorem AcceptPc.flag_of_owns {p : AcceptPc} {fd : Fd} {stage : Stage}
    (h : p.view.owns = some (fd, stage)) : stage.flag = false := by
  cases p with
  | accept | unlockMap => cases h
  | lockMap | insert =>
    cases h
    rfl

/-- Nor has one that an active thread is in charge of. -/
theorem ActivePc.flag_of_owns {p : ActivePc} {fd : Fd} {stage : Stage}
    (h : p.view.owns = some (fd, stage)) : stage.flag = false := by
  cases p with
  | unlockFd _ _ _ returned =>
    cases returned with
    | true => cases h
    | false =>
      cases h
      rfl
  | closeFd _ _ k => cases k <;> cases h <;> rfl
  | endUnlockFd _ _ again => cases again <;> cases h
  | _ => first | cases h; done | (cases h; rfl)

/-- A pool worker is in charge of the descriptor of its task. -/
theorem PoolPc.task_of_owns {p : PoolPc} {fd : Fd} {stage : Stage}
    (h : p.view.owns = some (fd, stage)) : p.task = some fd := by
  cases p <;> cases h <;> rfl

/-- The epoll thread has set the flag while it enqueues. -/
theorem LoopPc.enqueueing_of_owns {p : LoopPc} {fd : Fd} {stage : Stage}
    (h : p.view.owns = some (fd, stage)) (hflag : stage.flag = true) : p.Enqueueing fd := by
  cases p with
  | lookup _ l => rcases l with _ | _ | _ | c <;> cases h
  | closeFd _ _ k => cases k <;> cases h <;> cases hflag
  | unlockFd | enqueue =>
    cases h
    rfl
  | _ => cases h <;> cases hflag

variable {n : ℕ} {s : State} {P : Protocol}

/-- A connection that is not frozen and has its flag set has a task. -/
theorem taskPending_or_enqueueing (h : Refines s.obs P) {fd : Fd} {σ : Slot}
    (hσ : P.slot fd = some σ) (hfrozen : σ.owner ≠ .frozen) (hflag : σ.owner.flag = true) :
    s.TaskPending fd ∨ s.loop.Enqueueing fd := by
  rcases ho : σ.owner with _ | d | _ | ⟨t, stage⟩
  · rw [ho] at hflag
    cases hflag
  · exact .inl (.inl ⟨d, (h.tasks fd d).2 ⟨σ, hσ, ho⟩⟩)
  · exact absurd ho hfrozen
  · rw [ho] at hflag
    have howns : (s.obs.view t).owns = some (fd, stage) :=
      (h.owner t fd stage).2 (by simp [hσ, ho, Owner.holder])
    cases t with
    | acceptor => exact absurd hflag (by rw [Owner.flag, AcceptPc.flag_of_owns howns]; simp)
    | loop => exact .inr (LoopPc.enqueueing_of_owns howns hflag)
    | pool i => exact .inl (.inr ⟨i, PoolPc.task_of_owns howns⟩)
    | active i =>
      cases hi : s.active[i]? with
      | none =>
        change (((s.active[i]?).map ActivePc.view).getD .idle).owns = _ at howns
        rw [hi] at howns
        cases howns
      | some p =>
        rw [view_active hi] at howns
        exact absurd hflag (by rw [Owner.flag, ActivePc.flag_of_owns howns]; simp)

/-- Who is about to enqueue a task drives the descriptor. -/
theorem LoopPc.drives_of_enqueueing {p : LoopPc} {fd : Fd} (h : p.Enqueueing fd) :
    p.view.drives = some (fd, false) := by
  cases p with
  | unlockFd | enqueue =>
    cases h
    rfl
  | _ => cases h

/-- **A connection whose flag is set has a task, queued or executing or about to
be enqueued, and so has one whose flag a thread waits for**, in any state reached
without a chunk that the pool rejects or a handler that throws there. -/
theorem taskPending_of_flag (hs : (worker n).Reachable Clears s) :
    (∀ fd c, s.fdInfos fd = some c → (s.info c).fdInthreadpool = true →
      s.TaskPending fd ∨ s.loop.Enqueueing fd) ∧
    ∀ i fd c, s.waits i = some (fd, c) → s.TaskPending fd := by
  have hpermits : ∀ s (l : Tid × Choice) m, Clears s l → Permits s l.1 l.2 m → m.freezes = false :=
    fun s l m hl hm => by
      rw [← Bool.not_eq_true]
      exact fun hfreezes => hl (hm.freezes hfreezes)
  obtain ⟨P, hP, h⟩ := (simulation n hpermits).reachable hs
  have hinv := inv_of_reachable hP
  constructor
  · intro fd c hc hflag
    have hinfo := h.fdInfos fd
    rw [show s.obs.fdInfos fd = some c from hc] at hinfo
    obtain ⟨σ, hσ, hr⟩ := Option.bind_eq_some_iff.1 hinfo.symm
    split_ifs at hr
    cases hr
    exact taskPending_or_enqueueing h hσ (not_frozen hP hσ) ((h.flag fd σ hσ).symm.trans hflag)
  · intro i fd c hw
    rcases heard_of_reachable hs i fd c hw with hflag | ⟨j, hj⟩
    · obtain ⟨σ, hσ, rfl, hdriver⟩ := slot_of_waits h hw
      rcases taskPending_or_enqueueing h hσ (not_frozen hP hσ)
        ((h.flag fd σ hσ).symm.trans hflag) with htask | henqueueing
      · exact htask
      · -- the epoll thread does not drive what an active thread drives
        obtain ⟨σ', hσ', hdriver'⟩ := h.slot_of_drives (t := .loop) rfl
          (LoopPc.drives_of_enqueueing henqueueing)
        cases hσ.symm.trans hσ'
        rw [hdriver] at hdriver'
        cases hdriver'
    · exact .inr ⟨j, by rw [hj]; rfl⟩

/-- A test for `Clears`. -/
def clearsTest (s : State) (l : Tid × Choice) : Bool :=
  match l.1 with
  | .pool i => match s.pool i with
    | .parse _ d _ => match parseSockpackage d with
      | .ok none => false
      | _ => true
    | .handleRequest _ _ _ => l.2 != .thrown
    | _ => true
  | _ => true

/-- The test says that the step clears the flag. -/
theorem clears_of_clearsTest {s : State} {l : Tid × Choice} (h : clearsTest s l = true) :
    Clears s l := by
  rintro ⟨i, hi, ⟨fd, d, c, hpc, hd⟩ | ⟨⟨fd, c, pkg, hpc⟩, hch⟩⟩
  · simp [clearsTest, hi, hpc, hd] at h
  · simp [clearsTest, hi, hpc, hch] at h

/-- The first task ends and wakes its active thread, which ends too; the next chunk is
in the pool, and a new active thread waits for it. -/
def waitingAgain (d d' : Bytes) : List (Tid × Choice) :=
  drained d ++ List.replicate 5 (.active 0, .go) ++
    [(.active 0, .wake none), (.active 0, .go)] ++ nextChunk d' ++ secondEvent ++
    List.replicate 10 (.active 1, .go)

/-- An active thread waits for a task that is queued, after one that has ended. -/
theorem taskPending_of_flag_waiting :
    ∃ s, (worker 1).Reachable Clears s ∧ s.finished 0 = [buildPackage 1 [35]] ∧
      s.waits 1 = some (5, 0) ∧ s.TaskPending 5 := by
  obtain ⟨s, hs, hp⟩ := (reachable_start 1 Clears).exists_of_runIf clearsTest
    (fun _ _ _ => clears_of_clearsTest) (waitingAgain (buildPackage 1 [35]) (buildPackage 2 []))
    (fun s => s.finished 0 == [buildPackage 1 [35]] && s.waits 1 == some (5, 0))
    (by decide +kernel)
  obtain ⟨hfinished, hw⟩ : s.finished 0 = [buildPackage 1 [35]] ∧ s.waits 1 = some (5, 0) := by
    simpa using hp
  exact ⟨s, hs, hfinished, hw, (taskPending_of_flag hs).2 1 5 0 hw⟩

/-- A chunk that is rejected leaves the flag set without a task, and the active
thread asleep. -/
theorem not_taskPending_rejected :
    ∃ s, (worker 1).Reachable anyStep s ∧ s.fdInfos 5 = some 0 ∧
      (s.info 0).fdInthreadpool = true ∧ ¬ s.TaskPending 5 ∧ ¬ s.loop.Enqueueing 5 ∧
      s.waits 0 = some (5, 0) := by
  obtain ⟨s, hs, hp⟩ := (reachable_start 1 anyStep).exists_of_run
    (waiting [0] ++ List.replicate 7 (.pool 0, .go))
    (fun s => s.fdInfos 5 == some 0 && (s.info 0).fdInthreadpool && s.tasks == [] &&
      (s.pool 0).task == none && s.loop == .epollWait && s.waits 0 == some (5, 0))
    (fun _ _ _ => trivial) (by decide +kernel)
  simp only [Bool.and_eq_true, beq_iff_eq] at hp
  obtain ⟨⟨⟨⟨⟨hinfo, hflag⟩, htasks⟩, hpool⟩, hloop⟩, hwaits⟩ := hp
  refine ⟨s, hs, hinfo, hflag, ?_, ?_, hwaits⟩
  · rintro (⟨d, hd⟩ | ⟨i, hi⟩)
    · rw [htasks] at hd
      cases hd
    · rcases i with _ | i
      · rw [hpool] at hi
        cases hi
      · rw [idle_of_le hs (i + 1) (Nat.le_add_left 1 i)] at hi
        cases hi
  · rw [hloop]
    exact id

end Dispatch
end WeakAyas
