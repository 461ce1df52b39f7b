/-
# What a step of the pool does

`Move` lists the steps of `Pool.Threads` with all that each of them checks and
changes (`move_of_next`).  From it the facts that hold in every state: who has the
mutex (`Locked`), and that the queue is what has been pushed and not taken
(`Queued`).
-/

import WeakAyas.Pool.Threads

namespace WeakAyas
namespace Pool

open TransitionSystem

namespace ThreadPool

/-- One step: its guard and the state after it. -/
inductive Move (n : ℕ) (s : ThreadPool) : ThreadPool → Prop where
  | lock {i : ℕ} : i < n → s.worker i = .lock ∨ s.worker i = .relock → s.queue_mutex = none →
      Move n s { s with
        queue_mutex := some (.worker i), worker := Function.update s.worker i .check }
  | sleep {i : ℕ} : i < n → s.worker i = .check → s.stop = false → s.tasks = [] →
      Move n s { s with queue_mutex := none, worker := Function.update s.worker i .asleep }
  | quit {i : ℕ} : i < n → s.worker i = .check → s.stop = true → s.tasks = [] →
      Move n s { s with worker := Function.update s.worker i .leave }
  | go {i : ℕ} : i < n → s.worker i = .check → s.tasks ≠ [] →
      Move n s { s with worker := Function.update s.worker i .take }
  | take {i : ℕ} {task : Item} {rest : List Item} : i < n → s.worker i = .take →
      s.tasks = task :: rest →
      Move n s { s with
        tasks := rest, taken := s.taken ++ [(i, task)],
        worker := Function.update s.worker i (.unlock task) }
  | unlock {i : ℕ} {task : Item} : i < n → s.worker i = .unlock task →
      Move n s { s with queue_mutex := none, worker := Function.update s.worker i (.run task) }
  | finish {i : ℕ} {task : Item} : i < n → s.worker i = .run task →
      Move n s { s with
        finished := s.finished ++ [task], worker := Function.update s.worker i .lock }
  | leave {i : ℕ} : i < n → s.worker i = .leave →
      Move n s { s with queue_mutex := none, worker := Function.update s.worker i .ended }
  | wake {i : ℕ} : i < n → s.worker i = .asleep →
      Move n s { s with worker := Function.update s.worker i .relock }
  | call {k : ℕ} {task : Task} : s.enqueuer k = .idle →
      Move n s { s with enqueuer := Function.update s.enqueuer k (.lock task) }
  | enqueuerLock {k : ℕ} {task : Task} : s.enqueuer k = .lock task → s.queue_mutex = none →
      Move n s { s with
        queue_mutex := some (.enqueuer k), enqueuer := Function.update s.enqueuer k (.push task) }
  | push {k : ℕ} {task : Task} : s.enqueuer k = .push task →
      Move n s { s with
        tasks := s.tasks ++ [⟨s.enqueued.length, task⟩],
        enqueued := s.enqueued ++ [⟨s.enqueued.length, task⟩],
        enqueuer := Function.update s.enqueuer k .unlock }
  | enqueuerUnlock {k : ℕ} : s.enqueuer k = .unlock →
      Move n s { s with queue_mutex := none, enqueuer := Function.update s.enqueuer k .signal }
  | signal {k i : ℕ} : s.enqueuer k = .signal → i < n → s.worker i = .asleep →
      Move n s { s with
        worker := Function.update s.worker i .relock,
        enqueuer := Function.update s.enqueuer k .idle }
  | signalNobody {k : ℕ} : s.enqueuer k = .signal → (∀ i < n, s.worker i ≠ .asleep) →
      Move n s { s with enqueuer := Function.update s.enqueuer k .idle }
  | destroy : s.destructor = .idle → Move n s { s with destructor := .lock }
  | destructorLock : s.destructor = .lock → s.queue_mutex = none →
      Move n s { s with queue_mutex := some .destructor, destructor := .setStop }
  | setStop : s.destructor = .setStop →
      Move n s { s with stop := true, beforeStop := s.enqueued, destructor := .unlock }
  | destructorUnlock : s.destructor = .unlock →
      Move n s { s with queue_mutex := none, destructor := .broadcast }
  | broadcast : s.destructor = .broadcast →
      Move n s { s with
        worker := fun i => if s.worker i = .asleep then .relock else s.worker i,
        destructor := .join 0 }
  | join {i : ℕ} : s.destructor = .join i → i < n → s.worker i = .ended →
      Move n s { s with destructor := .join (i + 1) }
  | joined {i : ℕ} : s.destructor = .join i → n ≤ i → Move n s { s with destructor := .destroyed }

variable {n : ℕ} {s s' : ThreadPool}

/-- A step of a worker is a move. -/
theorem move_of_workerNext {i : ℕ} (hi : i < n) (h : s.workerNext i = some s') : Move n s s' := by
  unfold workerNext lockBy at h
  split at h
  case h_1 hpc =>
    split_ifs at h with hm <;> cases h
    exact .lock hi (.inl hpc) hm
  case h_2 hpc =>
    split_ifs at h with hm <;> cases h
    exact .lock hi (.inr hpc) hm
  case h_3 hpc =>
    split_ifs at h with hsleep hquit <;> cases h
    · exact .sleep hi hpc hsleep.1 hsleep.2
    · exact .quit hi hpc hquit.1 hquit.2
    · refine .go hi hpc fun hnil => ?_
      cases hstop : s.stop
      · exact hsleep ⟨hstop, hnil⟩
      · exact hquit ⟨hstop, hnil⟩
  case h_4 hpc =>
    split at h <;> cases h
    exact .take hi hpc ‹_›
  case h_5 hpc => cases h; exact .unlock hi hpc
  case h_6 hpc => cases h; exact .finish hi hpc
  case h_7 hpc => cases h; exact .leave hi hpc
  case h_8 => cases h
  case h_9 => cases h

/-- A step of an `enqueue` is a move. -/
theorem move_of_enqueuerNext {k : ℕ} (h : s.enqueuerNext k = some s') : Move n s s' := by
  unfold enqueuerNext lockBy at h
  split at h
  case h_1 hpc =>
    split_ifs at h with hm <;> cases h
    exact .enqueuerLock hpc hm
  case h_2 hpc => cases h; exact .push hpc
  case h_3 hpc => cases h; exact .enqueuerUnlock hpc
  case h_4 => cases h
  case h_5 => cases h

/-- A notification is a move. -/
theorem move_of_signalNext {k : ℕ} {woken : Option ℕ} (h : s.signalNext n k woken = some s') :
    Move n s s' := by
  cases woken with
  | some i =>
    simp only [signalNext, wakeNext] at h
    split_ifs at h with hpc hi hasleep <;> cases h
    exact .signal hpc hi hasleep
  | none =>
    simp only [signalNext] at h
    split_ifs at h with hpc hnone
    cases h
    exact .signalNobody hpc hnone

/-- A step of the destructor is a move. -/
theorem move_of_destructorNext (h : s.destructorNext n = some s') : Move n s s' := by
  unfold destructorNext lockBy at h
  split at h
  case h_1 hpc =>
    split_ifs at h with hm <;> cases h
    exact .destructorLock hpc hm
  case h_2 hpc => cases h; exact .setStop hpc
  case h_3 hpc => cases h; exact .destructorUnlock hpc
  case h_4 hpc => cases h; exact .broadcast hpc
  case h_5 i hpc =>
    split_ifs at h with hi hended <;> cases h
    · exact .join hpc hi hended
    · exact .joined hpc (Nat.le_of_not_lt hi)
  case h_6 => cases h
  case h_7 => cases h

/-- **Every step is one of the moves.** -/
theorem move_of_next {l : Step} (h : next n s l = some s') : Move n s s' := by
  cases l with
  | worker i =>
    simp only [next] at h
    split_ifs at h with hi
    exact move_of_workerNext hi h
  | throws i =>
    simp only [next, throwsNext] at h
    split_ifs at h with hi
    split at h <;> cases h
    exact .finish hi ‹_›
  | wake i =>
    simp only [next, wakeNext] at h
    split_ifs at h with hi hasleep
    cases h
    exact .wake hi hasleep
  | call k task =>
    simp only [next] at h
    split_ifs at h with hpc
    cases h
    exact .call hpc
  | enqueuer k => exact move_of_enqueuerNext h
  | signal k woken => exact move_of_signalNext h
  | destroy =>
    simp only [next] at h
    split_ifs at h with hpc
    cases h
    exact .destroy hpc
  | destructor => exact move_of_destructorNext h

/-! ### What holds in every state -/

/-- What every move preserves holds in every reachable state. -/
theorem invariant_of_move {I : ThreadPool → Prop} (hstart : I .start)
    (hmove : ∀ s s', I s → Move n s s' → I s') (hs : (threadPool n).Reachable anyStep s) :
    I s := by
  refine hs.invariant (fun s₀ h₀ => ?_) fun s₀ s₁ l h _ hn => hmove s₀ s₁ h (move_of_next hn)
  obtain rfl : s₀ = .start := h₀
  exact hstart

end ThreadPool

/-- The worker has `queue_mutex`. -/
def Worker.holds : Worker → Bool
  | check | take | unlock _ | leave => true
  | lock | asleep | relock | run _ | ended => false

/-- The call of `enqueue` has `queue_mutex`. -/
def Enqueuer.holds : Enqueuer → Bool
  | push _ | unlock => true
  | idle | lock _ | signal => false

/-- The destructor has `queue_mutex`. -/
def Destructor.holds : Destructor → Bool
  | setStop | unlock => true
  | idle | lock | broadcast | join _ | destroyed => false

/-- The destructor has set `stop`. -/
def Destructor.hasStopped : Destructor → Bool
  | idle | lock | setStop => false
  | unlock | broadcast | join _ | destroyed => true

namespace ThreadPool

attribute [local grind =] Worker.holds Enqueuer.holds Destructor.holds Destructor.hasStopped
  Function.update_apply

/-- The mutex has one holder, the thread that is between its lock and its unlock. -/
structure Locked (s : ThreadPool) : Prop where
  worker : ∀ i, s.queue_mutex = some (.worker i) ↔ (s.worker i).holds = true
  enqueuer : ∀ k, s.queue_mutex = some (.enqueuer k) ↔ (s.enqueuer k).holds = true
  destructor : s.queue_mutex = some .destructor ↔ s.destructor.holds = true

/-- At the start nobody holds the mutex. -/
theorem locked_start : Locked .start where
  worker _ := by simp [start, Worker.holds]
  enqueuer _ := by simp [start, Enqueuer.holds]
  destructor := by simp [start, Destructor.holds]

/-- **Every move keeps the holder of the mutex.** -/
theorem Locked.move (h : Locked s) (hm : Move n s s') : Locked s' := by
  obtain ⟨hworker, henqueuer, hdestructor⟩ := h
  cases hm <;> constructor <;> grind

/-- The queue is what has been pushed and not taken, and nobody changes it while a
worker is between its check and its use. -/
structure Queued (s : ThreadPool) : Prop where
  split : s.enqueued = s.taken.map Prod.snd ++ s.tasks
  serials : s.enqueued.map Item.serial = List.range s.enqueued.length
  stopped : s.stop = s.destructor.hasStopped
  before : s.beforeStop <+: s.enqueued
  take : ∀ i, s.worker i = .take → s.tasks ≠ []
  leave : ∀ i, s.worker i = .leave → s.stop = true ∧ s.tasks = []

/-- At the start there is no task. -/
theorem queued_start : Queued .start where
  split := rfl
  serials := rfl
  stopped := rfl
  before := List.prefix_rfl
  take _ := by simp [start]
  leave _ := by simp [start]

/-- **Every move keeps the tasks in their queue, or with who has taken them.** -/
theorem Queued.move (h : Queued s) (hl : Locked s) (hm : Move n s s') : Queued s' := by
  obtain ⟨hworker, henqueuer, hdestructor⟩ := hl
  obtain ⟨hsplit, hserials, hstopped, hbefore, htake, hleave⟩ := h
  cases hm with
  | push hpc =>
    refine ⟨?_, ?_, hstopped, hbefore.trans (List.prefix_append _ _), by simp, by grind⟩
    · simp [hsplit]
    · simp [hserials, List.range_succ]
  | _ => constructor <;> grind

/-- No task is taken twice. -/
theorem Queued.nodup (h : Queued s) : (s.taken.map Prod.snd ++ s.tasks).Nodup := by
  have hserials : (s.enqueued.map Item.serial).Nodup := h.serials ▸ List.nodup_range
  exact h.split ▸ hserials.of_map

/-- A task in the queue has not been taken. -/
theorem Queued.not_taken (h : Queued s) {i : ℕ} {task : Item} (htask : task ∈ s.tasks) :
    (i, task) ∉ s.taken := fun htaken =>
  (List.nodup_append.1 h.nodup).2.2 task (List.mem_map.2 ⟨_, htaken, rfl⟩) task htask rfl

/-- A task has been taken by one worker. -/
theorem Queued.taken_unique (h : Queued s) {i j : ℕ} {task : Item} (hi : (i, task) ∈ s.taken)
    (hj : (j, task) ∈ s.taken) : i = j := by
  have hinj := List.inj_on_of_nodup_map (List.nodup_append.1 h.nodup).1
  exact congrArg Prod.fst (hinj hi hj rfl)

end ThreadPool
end Pool
end WeakAyas
