/-
# The threads of the pool

`ThreadPool` (`ThreadPool.cpp`, lines 17-80): the workers, the calls of `enqueue`
and `~ThreadPool`.  Every lock and unlock of `queue_mutex`, every wait, signal and
broadcast on `condition` and every access to `tasks` and `stop` is a step of its
own, so `pthread_cond_signal` and `pthread_cond_broadcast` come after the mutex is
released and race with everything else.

Any number of `enqueue` calls run at the same time, one for each index; a task
that enqueues is one of them.  `pthread_cond_signal` wakes one sleeper of any
choice, and a sleeper may wake by itself.  A task ends when `func` returns or when
it throws, which `worker` catches.
-/

import WeakAyas.Library.TransitionSystem
import Mathlib.Logic.Function.Basic
import Mathlib.Data.List.Range
import Mathlib.Data.List.Nodup

namespace WeakAyas
namespace Pool

/-- `Task`: the addresses of the function and of its argument. -/
structure Task where
  func : UInt64
  arg : UInt64
  deriving DecidableEq, Repr

/-- A task in the order of the pushes. -/
structure Item where
  serial : ℕ
  task : Task
  deriving DecidableEq, Repr

/-- `ThreadPool::worker`. -/
inductive Worker where
  | lock
  | check
  | asleep
  | relock
  | take
  | unlock (task : Item)
  | run (task : Item)
  | leave
  | ended
  deriving DecidableEq, Repr

/-- `ThreadPool::enqueue`. -/
inductive Enqueuer where
  | idle
  | lock (task : Task)
  | push (task : Task)
  | unlock
  | signal
  deriving DecidableEq, Repr

/-- `ThreadPool::~ThreadPool`; `join i` is about to join the worker `i`. -/
inductive Destructor where
  | idle
  | lock
  | setStop
  | unlock
  | broadcast
  | join (i : ℕ)
  | destroyed
  deriving DecidableEq, Repr

inductive Thread where
  | worker (i : ℕ)
  | enqueuer (k : ℕ)
  | destructor
  deriving DecidableEq, Repr

/-- The pool and its threads.  `enqueued` and `taken` are the tasks pushed and
those taken off the queue, with the worker that took them, in order; `finished`
are those run to their end, and `beforeStop` those pushed before `stop` was set. -/
structure ThreadPool where
  queue_mutex : Option Thread
  tasks : List Item
  stop : Bool
  worker : ℕ → Worker
  enqueuer : ℕ → Enqueuer
  destructor : Destructor
  enqueued : List Item
  taken : List (ℕ × Item)
  finished : List Item
  beforeStop : List Item

/-- The steps.  `wake` is a spurious wakeup, and `signal` with the sleeper that it
wakes. -/
inductive Step where
  | worker (i : ℕ)
  | throws (i : ℕ)
  | wake (i : ℕ)
  | call (k : ℕ) (task : Task)
  | enqueuer (k : ℕ)
  | signal (k : ℕ) (woken : Option ℕ)
  | destroy
  | destructor
  deriving DecidableEq, Repr

namespace ThreadPool

/-- A new pool; the workers have not run yet. -/
def start : ThreadPool where
  queue_mutex := none
  tasks := []
  stop := false
  worker _ := .lock
  enqueuer _ := .idle
  destructor := .idle
  enqueued := []
  taken := []
  finished := []
  beforeStop := []

variable (n : ℕ) (s : ThreadPool)

def setWorker (i : ℕ) (w : Worker) : ThreadPool :=
  { s with worker := Function.update s.worker i w }

def setEnqueuer (k : ℕ) (e : Enqueuer) : ThreadPool :=
  { s with enqueuer := Function.update s.enqueuer k e }

def setDestructor (d : Destructor) : ThreadPool := { s with destructor := d }

/-- `pthread_mutex_lock` and `pthread_mutex_unlock`. -/
def setMutex (t : Option Thread) : ThreadPool := { s with queue_mutex := t }

/-- The thread `t` gets the mutex when it is free. -/
def lockBy (t : Thread) : Option ThreadPool :=
  if s.queue_mutex = none then some (s.setMutex (some t)) else none

/-- `task = tasks.front(); tasks.pop();` -/
def pop (i : ℕ) (task : Item) (rest : List Item) : ThreadPool :=
  { s with tasks := rest, taken := s.taken ++ [(i, task)] }

/-- `tasks.push(Task{func, arg})` -/
def push (task : Task) : ThreadPool :=
  { s with
    tasks := s.tasks ++ [⟨s.enqueued.length, task⟩]
    enqueued := s.enqueued ++ [⟨s.enqueued.length, task⟩] }

/-- `task.func(task.arg)` has returned or thrown. -/
def finish (task : Item) : ThreadPool := { s with finished := s.finished ++ [task] }

/-- `stop = true` -/
def setStop : ThreadPool := { s with stop := true, beforeStop := s.enqueued }

/-- Every sleeper wakes. -/
def wakeAll : ThreadPool :=
  { s with worker := fun i => if s.worker i = .asleep then .relock else s.worker i }

/-- A step of the worker `i`. -/
def workerNext (i : ℕ) : Option ThreadPool :=
  match s.worker i with
  | .lock | .relock => (s.lockBy (.worker i)).map fun s => s.setWorker i .check
  | .check =>
    if s.stop = false ∧ s.tasks = [] then
      -- pthread_cond_wait releases the mutex and sleeps in one step
      some ((s.setMutex none).setWorker i .asleep)
    else if s.stop = true ∧ s.tasks = [] then some (s.setWorker i .leave)
    else some (s.setWorker i .take)
  | .take => match s.tasks with
    | [] => none
    | task :: rest => some ((s.pop i task rest).setWorker i (.unlock task))
  | .unlock task => some ((s.setMutex none).setWorker i (.run task))
  | .run task => some ((s.finish task).setWorker i .lock)
  | .leave => some ((s.setMutex none).setWorker i .ended)
  | .asleep | .ended => none

/-- The task of the worker `i` throws; `catch (...)` ends it like a return. -/
def throwsNext (i : ℕ) : Option ThreadPool :=
  match s.worker i with
  | .run task => some ((s.finish task).setWorker i .lock)
  | _ => none

/-- The sleeper `i` wakes. -/
def wakeNext (i : ℕ) : Option ThreadPool :=
  if s.worker i = .asleep then some (s.setWorker i .relock) else none

/-- A step of the call `k` of `enqueue`, up to the signal. -/
def enqueuerNext (k : ℕ) : Option ThreadPool :=
  match s.enqueuer k with
  | .lock task => (s.lockBy (.enqueuer k)).map fun s => s.setEnqueuer k (.push task)
  | .push task => some ((s.push task).setEnqueuer k .unlock)
  | .unlock => some ((s.setMutex none).setEnqueuer k .signal)
  | .idle | .signal => none

/-- `pthread_cond_signal` of the call `k`. -/
def signalNext (k : ℕ) (woken : Option ℕ) : Option ThreadPool :=
  if s.enqueuer k = .signal then
    match woken with
    | some i => if i < n then (s.wakeNext i).map fun s => s.setEnqueuer k .idle else none
    | none => if ∀ i < n, s.worker i ≠ .asleep then some (s.setEnqueuer k .idle) else none
  else none

/-- A step of `~ThreadPool`. -/
def destructorNext : Option ThreadPool :=
  match s.destructor with
  | .lock => (s.lockBy .destructor).map fun s => s.setDestructor .setStop
  | .setStop => some (s.setStop.setDestructor .unlock)
  | .unlock => some ((s.setMutex none).setDestructor .broadcast)
  | .broadcast => some (s.wakeAll.setDestructor (.join 0))
  | .join i =>
    if i < n then if s.worker i = .ended then some (s.setDestructor (.join (i + 1))) else none
    else some (s.setDestructor .destroyed)
  | .idle | .destroyed => none

def next : Step → Option ThreadPool
  | .worker i => if i < n then s.workerNext i else none
  | .throws i => if i < n then s.throwsNext i else none
  | .wake i => if i < n then s.wakeNext i else none
  | .call k task =>
    if s.enqueuer k = .idle then some (s.setEnqueuer k (.lock task)) else none
  | .enqueuer k => s.enqueuerNext k
  | .signal k woken => s.signalNext n k woken
  | .destroy => if s.destructor = .idle then some (s.setDestructor .lock) else none
  | .destructor => s.destructorNext n

end ThreadPool

/-- The runs of a pool of `n` workers. -/
def threadPool (n : ℕ) : TransitionSystem ThreadPool Step where
  init s := s = .start
  next := ThreadPool.next n

end Pool
end WeakAyas
