/-
# The pool serves what it gets

`ThreadPool` (`ThreadPool.cpp`, lines 17-80), any number of workers: the tasks are
taken in the order of the pushes and by one worker each, no sleeper is left with a
task and nobody to wake it, a worker ends on an empty queue after `stop`, and what
was pushed before `stop` has been run when the last worker is joined.

The claim about sleepers needs a worker that has not ended.  `enqueue` does not
look at `stop`: a call that gets the mutex after the last worker has left pushes a
task that stays (`left_behind`).
-/

import WeakAyas.Pool.Moves

namespace WeakAyas
namespace Pool

open TransitionSystem

/-- The worker neither sleeps nor has ended. -/
def Worker.awake : Worker → Bool
  | asleep | ended => false
  | lock | check | relock | take | unlock _ | run _ | leave => true

/-- The task that the worker has taken and not run to its end. -/
def Worker.inHand : Worker → Option Item
  | unlock task | run task => some task
  | lock | check | asleep | relock | take | leave | ended => none

/-- The worker has seen `stop` and an empty queue. -/
def Worker.gone : Worker → Bool
  | leave | ended => true
  | lock | check | asleep | relock | take | unlock _ | run _ => false

/-- The call has pushed its task and not signalled yet. -/
def Enqueuer.signals : Enqueuer → Bool
  | unlock | signal => true
  | idle | lock _ | push _ => false

/-- The destructor has set `stop` and not broadcast yet. -/
def Destructor.signals : Destructor → Bool
  | unlock | broadcast => true
  | idle | lock | setStop | join _ | destroyed => false

/-- The workers that the destructor has joined. -/
def Destructor.joined (n : ℕ) : Destructor → ℕ
  | join i => i
  | destroyed => n
  | idle | lock | setStop | unlock | broadcast => 0

namespace ThreadPool

attribute [local grind =] Worker.holds Enqueuer.holds Destructor.holds Destructor.hasStopped
  Worker.awake Worker.inHand Worker.gone Enqueuer.signals Destructor.signals Destructor.joined
  Function.update_apply

variable {n : ℕ} {s s' : ThreadPool}

/-- With a task in the queue and a sleeper, somebody is awake or about to signal. -/
def Wakes (n : ℕ) (s : ThreadPool) : Prop :=
  s.tasks ≠ [] → (∃ i < n, s.worker i = .asleep) →
    (∃ i < n, (s.worker i).awake = true) ∨ (∃ k, (s.enqueuer k).signals = true) ∨
      s.destructor.signals = true

/-- A worker that is awake comes to the tasks. -/
theorem Wakes.of_awake {i : ℕ} (hi : i < n) (hawake : (s.worker i).awake = true) : Wakes n s :=
  fun _ _ => .inl ⟨i, hi, hawake⟩

/-- Without tasks nobody has to wake. -/
theorem Wakes.of_empty (h : s.tasks = []) : Wakes n s := fun hne _ => absurd h hne

/-- The workers and the queue stay, and who was about to signal still is. -/
theorem Wakes.of_same (h : Wakes n s) (htasks : s'.tasks = s.tasks) (hworker : s'.worker = s.worker)
    (henqueuer : ∀ k, (s.enqueuer k).signals = true → (s'.enqueuer k).signals = true)
    (hdestructor : s.destructor.signals = true → s'.destructor.signals = true) : Wakes n s' := by
  intro htask hsleeper
  rw [htasks] at htask
  rw [hworker] at hsleeper ⊢
  rcases h htask hsleeper with hawake | ⟨k, hk⟩ | hd
  · exact .inl hawake
  · exact .inr (.inl ⟨k, henqueuer k hk⟩)
  · exact .inr (.inr (hdestructor hd))

/-- Every move leaves somebody to come to the tasks. -/
theorem Wakes.move (h : Wakes n s) (hq : Queued s) (hm : Move n s s') : Wakes n s' := by
  cases hm with
  | lock hi => exact .of_awake hi (by simp [Worker.awake])
  | sleep _ _ _ hnil => exact .of_empty hnil
  | quit _ _ _ hnil => exact .of_empty hnil
  | go hi => exact .of_awake hi (by simp [Worker.awake])
  | take hi => exact .of_awake hi (by simp [Worker.awake])
  | unlock hi => exact .of_awake hi (by simp [Worker.awake])
  | finish hi => exact .of_awake hi (by simp [Worker.awake])
  | @leave i _ hpc => exact .of_empty (hq.leave i hpc).2
  | wake hi => exact .of_awake hi (by simp [Worker.awake])
  | call hpc => exact h.of_same rfl rfl (by grind) id
  | enqueuerLock hpc => exact h.of_same rfl rfl (by grind) id
  | @push k => exact fun _ _ => .inr (.inl ⟨k, by simp [Enqueuer.signals]⟩)
  | @enqueuerUnlock k => exact fun _ _ => .inr (.inl ⟨k, by simp [Enqueuer.signals]⟩)
  | signal _ hi => exact .of_awake hi (by simp [Worker.awake])
  | signalNobody _ hnone => exact fun _ ⟨i, hi, hasleep⟩ => absurd hasleep (hnone i hi)
  | destroy hpc => exact h.of_same rfl rfl (fun _ => id) (by grind)
  | destructorLock hpc => exact h.of_same rfl rfl (fun _ => id) (by grind)
  | setStop => exact fun _ _ => .inr (.inr rfl)
  | destructorUnlock => exact fun _ _ => .inr (.inr rfl)
  | broadcast => exact fun _ ⟨i, _, hasleep⟩ => by grind
  | join hpc => exact h.of_same rfl rfl (fun _ => id) (by grind)
  | joined hpc => exact h.of_same rfl rfl (fun _ => id) (by grind)

/-- Who has gone has left nothing that was there before `stop`. -/
def Left (s : ThreadPool) : Prop :=
  ∀ i, (s.worker i).gone = true → s.stop = true ∧ s.beforeStop <+: s.taken.map Prod.snd

/-- A worker leaves only when `stop` is set and no task is there. -/
theorem Left.move (h : Left s) (hl : Locked s) (hq : Queued s) (hm : Move n s s') :
    Left s' := by
  obtain ⟨hworker, henqueuer, hdestructor⟩ := hl
  cases hm with
  | @quit i _ hpc hstop hnil =>
    -- the queue is empty, so everything that was pushed has been taken
    have htaken : s.enqueued = s.taken.map Prod.snd := by
      rw [hq.split, hnil, List.append_nil]
    exact fun _ _ => ⟨hstop, htaken ▸ hq.before⟩
  | @take i task rest hi hpc htasks =>
    intro j hj
    have hgone : (s.worker j).gone = true := by grind
    obtain ⟨hstop, hbefore⟩ := h j hgone
    refine ⟨hstop, hbefore.trans ?_⟩
    rw [List.map_append]
    exact List.prefix_append _ _
  | setStop hpc =>
    -- nobody has gone before `stop` is set
    have hstop : s.stop = false := by rw [hq.stopped, hpc]; rfl
    intro j hj
    have := (h j hj).1
    rw [hstop] at this
    cases this
  | _ =>
    unfold Left at h ⊢
    grind

/-- A task taken is in the hand of its worker until it is finished, once. -/
structure InHand (n : ℕ) (s : ThreadPool) : Prop where
  lt : ∀ i task, (i, task) ∈ s.taken → i < n
  taken : ∀ i task, (s.worker i).inHand = some task → (i, task) ∈ s.taken ∧ task ∉ s.finished
  done : ∀ i task, (i, task) ∈ s.taken → task ∈ s.finished ∨ (s.worker i).inHand = some task
  finished : ∀ task ∈ s.finished, ∃ i, (i, task) ∈ s.taken
  once : s.finished.Nodup

/-- A task that is taken is in the hand of its worker. -/
theorem InHand.move (h : InHand n s) (hq : Queued s) (hm : Move n s s') :
    InHand n s' := by
  obtain ⟨hlt, htaken, hdone, hfinished, honce⟩ := h
  cases hm with
  | @take i task rest hi hpc htasks =>
    have hnew : ∀ j, (j, task) ∉ s.taken := fun j => hq.not_taken (by simp [htasks])
    have hunfinished : task ∉ s.finished := fun hmem => by
      obtain ⟨j, hj⟩ := hfinished task hmem
      exact hnew j hj
    constructor <;> grind
  | @finish i task hi hpc =>
    obtain ⟨hmem, hunfinished⟩ := htaken i task (by rw [hpc]; rfl)
    have hone : ∀ j, (s.worker j).inHand = some task → j = i := fun j hj =>
      hq.taken_unique (htaken j task hj).1 hmem
    constructor <;> grind
  | _ => constructor <;> grind

/-- The workers that the destructor has joined have ended. -/
def Joined (n : ℕ) (s : ThreadPool) : Prop :=
  ∀ i < s.destructor.joined n, s.worker i = .ended

/-- The destructor joins the workers that have left. -/
theorem Joined.move (h : Joined n s) (hm : Move n s s') : Joined n s' := by
  unfold Joined at h ⊢
  cases hm <;> grind

/-! ### All of it, in every state -/

/-- A task is in the queue, every worker that has not ended sleeps, and nobody has
pushed or set `stop` without having signalled yet. -/
structure Stuck (n : ℕ) (s : ThreadPool) : Prop where
  tasks : s.tasks ≠ []
  asleep : ∀ i < n, s.worker i ≠ .ended → s.worker i = .asleep
  enqueuer : ∀ k, (s.enqueuer k).signals = false
  destructor : s.destructor.signals = false

/-- What the pool does with its tasks. -/
structure Serves (n : ℕ) (s : ThreadPool) : Prop where
  inOrder : s.taken.map Prod.snd <+: s.enqueued
  once : (s.taken.map Prod.snd).Nodup ∧ s.finished.Nodup
  woken : (∃ i < n, s.worker i ≠ .ended) → ¬ Stuck n s
  ends : ∀ l s', next n s l = some s' → ∀ i, s.worker i ≠ .ended → s'.worker i = .ended →
    s.stop = true ∧ s.tasks = []
  served : s.destructor = .join n ∨ s.destructor = .destroyed →
    ∀ task ∈ s.beforeStop, task ∈ s.finished

/-- What every move preserves. -/
structure Inv (n : ℕ) (s : ThreadPool) : Prop where
  locked : Locked s
  queued : Queued s
  wakes : Wakes n s
  left : Left s
  inHand : InHand n s
  joined : Joined n s

/-- The invariant holds at the start. -/
theorem inv_start (n : ℕ) : Inv n .start where
  locked := locked_start
  queued := queued_start
  wakes := .of_empty rfl
  left _ := by simp [start, Worker.gone]
  inHand := ⟨by simp [start], by simp [start, Worker.inHand], by simp [start], by simp [start],
    List.nodup_nil⟩
  joined := by simp [Joined, start, Destructor.joined]

/-- **Every move keeps the invariant.** -/
theorem Inv.move (h : Inv n s) (hm : Move n s s') : Inv n s' where
  locked := h.locked.move hm
  queued := h.queued.move h.locked hm
  wakes := h.wakes.move h.queued hm
  left := h.left.move h.locked h.queued hm
  inHand := h.inHand.move h.queued hm
  joined := h.joined.move hm

/-- The invariant holds in every state. -/
theorem inv_of_reachable (hs : (threadPool n).Reachable anyStep s) : Inv n s :=
  invariant_of_move (inv_start n) (fun _ _ h => h.move) hs

/-- With a worker that has not ended nobody is stuck. -/
theorem Inv.not_stuck (h : Inv n s) (hlive : ∃ i < n, s.worker i ≠ .ended) : ¬ Stuck n s := by
  rintro ⟨htasks, hasleep, henqueuer, hdestructor⟩
  obtain ⟨i, hi, hne⟩ := hlive
  rcases h.wakes htasks ⟨i, hi, hasleep i hi hne⟩ with ⟨j, hj, hawake⟩ | ⟨k, hk⟩ | hd
  · by_cases hended : s.worker j = .ended
    · simp [hended, Worker.awake] at hawake
    · simp [hasleep j hj hended, Worker.awake] at hawake
  · simp [henqueuer k] at hk
  · simp [hdestructor] at hd

/-- A worker ends by `leave` only. -/
theorem leave_of_ended (hm : Move n s s') {i : ℕ} (hi : s.worker i ≠ .ended)
    (hi' : s'.worker i = .ended) : s.worker i = .leave := by
  cases hm <;> grind

/-- Once all workers have ended, what was pushed before `stop` is finished. -/
theorem Inv.finished_of_ended (h : Inv n s) (hn : 0 < n) (hended : ∀ i < n, s.worker i = .ended) :
    ∀ task ∈ s.beforeStop, task ∈ s.finished := by
  intro task htask
  have hbefore := (h.left 0 (by simp [hended 0 hn, Worker.gone])).2
  obtain ⟨⟨i, task'⟩, htaken, rfl⟩ := List.mem_map.1 (hbefore.subset htask)
  rcases h.inHand.done i task' htaken with hfinished | hhand
  · exact hfinished
  · simp [hended i (h.inHand.lt i task' htaken), Worker.inHand] at hhand

/-- **The pool serves what it gets.**  Any number of workers, any calls of
`enqueue`, any interleaving: the tasks are taken in order and once each, no sleeper
is forgotten, a worker ends on an empty queue after `stop`, and when all are joined
what was pushed before `stop` has been run. -/
theorem serves_of_reachable (hn : 0 < n) (hs : (threadPool n).Reachable anyStep s) :
    Serves n s := by
  have h := inv_of_reachable hs
  have hnodup := h.queued.nodup
  refine ⟨?_, ⟨(List.nodup_append.1 hnodup).1, h.inHand.once⟩, h.not_stuck, ?_, ?_⟩
  · rw [h.queued.split]
    exact List.prefix_append _ _
  · intro l s' hnext i hi hi'
    exact h.queued.leave i (leave_of_ended (move_of_next hnext) hi hi')
  · intro hjoined
    refine h.finished_of_ended hn fun i hi => h.joined i ?_
    rcases hjoined with hjoined | hjoined <;> simpa [hjoined, Destructor.joined] using hi

/-- A task is pushed, runs while the pool is destroyed, and throws. -/
def thrown : List Step :=
  [.call 0 ⟨16, 32⟩, .enqueuer 0, .enqueuer 0, .enqueuer 0, .signal 0 none,
    .worker 0, .worker 0, .worker 0, .worker 0,
    .destroy, .destructor, .destructor, .destructor, .destructor,
    .throws 0, .worker 0, .worker 0, .worker 0, .destructor, .destructor]

/-- A task that throws, and the end of the pool. -/
theorem serves_of_reachable_thrown :
    ∃ s, s.destructor = .destroyed ∧ s.finished = [⟨0, ⟨16, 32⟩⟩] ∧ Serves 1 s := by
  obtain ⟨s, hs, hp⟩ := Reachable.exists_of_run (M := threadPool 1) (.init rfl) thrown
    (fun s => s.destructor = .destroyed ∧ s.finished = [⟨0, ⟨16, 32⟩⟩]) (fun _ _ _ => trivial)
    (by decide)
  have hp := of_decide_eq_true hp
  exact ⟨s, hp.1, hp.2, serves_of_reachable (by decide) hs⟩

/-! ### After the last worker -/

/-- The only worker leaves after `stop`, and then a call of `enqueue` gets the
mutex. -/
def late : List Step :=
  [.destroy, .destructor, .destructor, .destructor, .destructor, .worker 0, .worker 0, .worker 0,
    .call 0 ⟨16, 32⟩, .enqueuer 0, .enqueuer 0, .enqueuer 0, .signal 0 none]

/-- The state after `late`: the task stays and the destructor is about to join. -/
def behind : ThreadPool where
  queue_mutex := none
  tasks := [⟨0, ⟨16, 32⟩⟩]
  stop := true
  worker := Function.update (Function.update (Function.update
    (fun i => if (fun _ => Worker.lock) i = Worker.asleep then .relock else (fun _ => .lock) i)
    0 .check) 0 .leave) 0 .ended
  enqueuer := Function.update (Function.update (Function.update (Function.update (Function.update
    (fun _ => .idle) 0 (.lock ⟨16, 32⟩)) 0 (.push ⟨16, 32⟩)) 0 .unlock) 0 .signal) 0 .idle
  destructor := .join 0
  enqueued := [⟨0, ⟨16, 32⟩⟩]
  taken := []
  finished := []
  beforeStop := []

/-- **A task that nobody takes.**  Every worker that has not ended sleeps, as there
is none, and nobody is about to signal. -/
theorem left_behind : ¬ ∀ s, (threadPool 1).Reachable anyStep s → ¬ Stuck 1 s := by
  intro h
  refine h behind (.of_run (.init rfl) late rfl) ⟨by simp [behind], ?_, ?_, rfl⟩
  · intro i hi hne
    obtain rfl : i = 0 := by omega
    exact absurd (by simp [behind]) hne
  · intro k
    simp [behind, Enqueuer.signals]

end ThreadPool
end Pool
end WeakAyas
