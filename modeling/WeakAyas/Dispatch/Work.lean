/-
# The work that is left to a worker

Each thread has a weight that falls with every step it takes by itself.  A thread
that is notified, that finds `needactive` set, or that is started anew has work
again: the thread that notifies it, the epoll thread that sets the flag or starts it
has had that work before, and so has a task before a worker of the pool takes it.
So every step without anything from outside costs work.
-/

import WeakAyas.Dispatch.Progress
import WeakAyas.Library.Weights

namespace WeakAyas
namespace Dispatch

def Lookup.work : Lookup → ℕ
  | lock => 2
  | find => 1
  | unlock _ => 0

def CloseFd.work : CloseFd → ℕ
  | lock => 4
  | erase => 3
  | close => 2
  | unlock => 1

def AcceptPc.work : AcceptPc → ℕ
  | accept => 0
  | lockMap _ _ => 3
  | insert _ _ => 2
  | unlockMap => 1

/-- The weight of the epoll thread beside `k` active threads.  Until it has set
`needactive` it has the work of one more round of each of them. -/
def LoopPc.work (k : ℕ) : LoopPc → ℕ
  | epollWait | ended => 0
  | lookup _ l => 28 + l.work + 12 * k
  | lockMap _ _ => 27 + 12 * k
  | checkRunning _ _ => 26 + 12 * k
  | setNeedactive _ => 2 + 12 * k
  | checkInthreadpool _ _ => 25 + 12 * k
  | spawnNeedactive _ _ => 24 + 12 * k
  | spawnRunning _ _ => 23
  | spawn _ _ => 22
  | unlockMap => 1
  | unlockMapHandle _ _ => 9
  | handleLookup _ _ l => 6 + l.work
  | read _ _ _ => 5
  | lockFd _ _ _ _ => 17
  | setInthreadpool _ _ _ _ => 16
  | unlockFd _ _ _ _ => 15
  | enqueue _ _ _ _ => 14
  | closeFd _ _ k => k.work

def PoolPc.work : PoolPc → ℕ
  | idle => 0
  | lookup _ _ l => 10 + l.work
  | lockFd _ _ _ => 9
  | parse _ _ _ => 8
  | handleRequest _ _ _ => 7
  | clearInthreadpool _ _ => 6
  | notify _ _ => 5
  | unlockFd _ _ => 1

def ActivePc.work : ActivePc → ℕ
  | start _ l => 18 + l.work
  | clearNeedactive _ _ => 17
  | lookup _ _ l => 14 + l.work
  | lockFd _ _ _ | relockFd _ _ _ => 13
  | checkInthreadpool _ _ _ => 12
  | wait _ _ _ | read _ _ _ => 11
  | asleep _ _ _ => 10
  | enqLookup _ _ _ _ l => 16 + l.work
  | enqLockFd _ _ _ _ _ => 15
  | enqParse _ _ _ _ _ => 14
  | enqHandleRequest _ _ _ _ _ => 13
  | enqUnlockFd _ _ _ _ => 12
  | unlockFd _ _ _ returned => if returned then 10 else 6
  | eraseFd _ _ => 5
  | closeFd _ _ k => k.work
  | sleep _ _ => 9
  | endLockFd _ _ => 8
  | endCheck _ _ => 7
  | endRunning _ _ => 6
  | endNotify _ _ => 5
  | endUnlockFd _ _ again => if again then 18 else 1
  | ended => 0

/-- The connection whose `needactive` the thread has cleared, and will look at. -/
def ActivePc.looksAt : ActivePc → Option ConnId
  | lookup _ c _ | lockFd _ c _ | checkInthreadpool _ c _ | wait _ c _ | asleep _ c _
  | relockFd _ c _ | read _ c _ | enqLookup _ c _ _ _ | enqLockFd _ c _ _ _ | enqParse _ c _ _ _
  | enqHandleRequest _ c _ _ _ | enqUnlockFd _ c _ _ | unlockFd _ c _ true | sleep _ c
  | endLockFd _ c | endCheck _ c => some c
  | _ => none

/-- The weight of an active thread: where it will find `needactive` set it has one
more round before it. -/
def ActivePc.weight (needactive : ConnId → Bool) (p : ActivePc) : ℕ :=
  p.work + 12 * (p.looksAt.any needactive).toNat

/-- `needactive` of all connections. -/
def State.needactive (s : State) (c : ConnId) : Bool := (s.info c).needactive

/-- The work that is left. -/
def State.work (n : ℕ) (s : State) : ℕ :=
  s.acceptor.work + s.loop.work s.active.length + 13 * s.tasks.length +
    ∑ i ∈ Finset.range n, (s.pool i).work + (s.active.map (ActivePc.weight s.needactive)).sum

namespace State

variable {n : ℕ} {s s₁ : State}

/-! ### Where the threads are left as they are -/

/-- The work depends on the places, the tasks and `needactive`. -/
theorem work_congr (hacceptor : s₁.acceptor = s.acceptor) (hloop : s₁.loop = s.loop)
    (htasks : s₁.tasks = s.tasks) (hpool : s₁.pool = s.pool) (hactive : s₁.active = s.active)
    (hneed : s₁.needactive = s.needactive) : s₁.work n = s.work n := by
  rw [work, hacceptor, hloop, htasks, hpool, hactive, hneed, work]

/-- The flags and the mutex of a connection do not count, but for `needactive`. -/
theorem work_setInfo {c : ConnId} {info : FdInfo}
    (h : info.needactive = (s.info c).needactive) : (s.setInfo c info).work n = s.work n := by
  refine work_congr rfl rfl rfl rfl rfl ?_
  funext c'
  rcases eq_or_ne c' c with rfl | hne
  · simp [needactive, setInfo, h]
  · simp [needactive, setInfo, hne]

/-- To lock or unlock an `fd_mutex` is no work. -/
theorem work_setFdMutex (c : ConnId) (t : Option Tid) :
    (s.setFdMutex c t).work n = s.work n := work_setInfo rfl

/-- Nor is a write of `fd_inthreadpool`. -/
theorem work_setFdInthreadpool (c : ConnId) (b : Bool) :
    (s.setFdInthreadpool c b).work n = s.work n := work_setInfo rfl

/-- Nor is one of `thread_running`. -/
theorem work_setThreadRunning (c : ConnId) (b : Bool) :
    (s.setThreadRunning c b).work n = s.work n := work_setInfo rfl

/-- A flag that is cleared takes no work from anybody. -/
theorem work_clearNeedactive (c : ConnId) : (s.setNeedactive c false).work n ≤ s.work n := by
  have hweight : ∀ p : ActivePc,
      p.weight (s.setNeedactive c false).needactive ≤ p.weight s.needactive + 0 := by
    intro p
    rcases hp : p.looksAt with _ | c'
    · simp [ActivePc.weight, hp]
    · rcases eq_or_ne c' c with rfl | hne
      · simp [ActivePc.weight, hp, needactive, setNeedactive, setInfo]
      · simp [ActivePc.weight, hp, needactive, setNeedactive, setInfo, hne]
  have hsum := sum_map_le_add s.active hweight
  change s.acceptor.work + s.loop.work s.active.length + 13 * s.tasks.length +
    ∑ i ∈ Finset.range n, (s.pool i).work +
    (s.active.map (ActivePc.weight (s.setNeedactive c false).needactive)).sum ≤ _
  rw [work]
  omega

/-- A flag that is set may mean one more round of each active thread. -/
theorem work_setNeedactive (c : ConnId) :
    (s.setNeedactive c true).work n ≤ s.work n + 12 * s.active.length := by
  have hweight : ∀ p : ActivePc,
      p.weight (s.setNeedactive c true).needactive ≤ p.weight s.needactive + 12 := by
    intro p
    have hone := Bool.toNat_le (p.looksAt.any (s.setNeedactive c true).needactive)
    simp only [ActivePc.weight]
    omega
  have hsum := sum_map_le_add s.active hweight
  change s.acceptor.work + s.loop.work s.active.length + 13 * s.tasks.length +
    ∑ i ∈ Finset.range n, (s.pool i).work +
    (s.active.map (ActivePc.weight (s.setNeedactive c true).needactive)).sum ≤ _
  rw [work]
  omega

/-! ### Where one of them gets on -/

/-- A task is the work of 13 steps. -/
theorem work_setTasks (tasks : List (Fd × Bytes)) :
    (s.setTasks tasks).work n + 13 * s.tasks.length = s.work n + 13 * tasks.length := by
  have hneed : (s.setTasks tasks).needactive = s.needactive := rfl
  simp only [work, hneed]
  simp only [setTasks]
  omega

/-- A pool worker moves. -/
theorem work_setPool {i : ℕ} (hi : i < n) (p : PoolPc) :
    (s.setPool i p).work n + (s.pool i).work = s.work n + p.work := by
  have hsum := sum_update_add PoolPc.work hi s.pool p
  have hneed : (s.setPool i p).needactive = s.needactive := rfl
  simp only [work, hneed]
  simp only [setPool]
  omega

/-- An active thread moves. -/
theorem work_setActive {i : ℕ} {p₀ : ActivePc} (hi : s.active[i]? = some p₀) (p : ActivePc) :
    (s.setActive i p).work n + p₀.weight s.needactive = s.work n + p.weight s.needactive := by
  have hsum := sum_set_add (ActivePc.weight s.needactive) hi p
  have hneed : (s.setActive i p).needactive = s.needactive := rfl
  simp only [work, hneed]
  simp only [setActive, List.length_set]
  omega

/-- A new active thread brings its own work. -/
theorem work_pushActive (p : ActivePc) (hloop : ∀ k, s.loop.work k = s.loop.work 0) :
    (s.pushActive p).work n = s.work n + p.weight s.needactive := by
  have hneed : (s.pushActive p).needactive = s.needactive := rfl
  simp only [work, hneed]
  simp only [pushActive, hloop, List.map_append, List.map_cons, List.map_nil, List.sum_append,
    List.sum_cons, List.sum_nil]
  omega

/-- A notification wakes a thread that has three more steps to the next sleep. -/
theorem work_notifyOne {c : ConnId} {who : Option ℕ} (h : s.notifyOne c who = some s₁) :
    s₁.work n ≤ s.work n + 3 := by
  obtain ⟨rfl, -⟩ | ⟨j, fd, c₁, hj, rfl⟩ := notifyOne_cases h
  · omega
  · have hset := work_setActive (n := n) hj (.relockFd fd c₁ c)
    simp only [ActivePc.weight, ActivePc.work, ActivePc.looksAt] at hset
    omega

/-- The acceptor has less to do than before. -/
theorem setAcceptor_lt {p : AcceptPc} (hw : s₁.work n = s.work n) (hpc : s₁.acceptor = s.acceptor)
    (hp : p.work < s.acceptor.work) : (s₁.setAcceptor p).work n < s.work n := by
  have hneed : (s₁.setAcceptor p).needactive = s₁.needactive := rfl
  rw [← hw]
  simp only [work, hneed]
  simp only [setAcceptor]
  rw [hpc]
  omega

/-- The epoll thread has less to do than before, by more than it gives to others. -/
theorem setLoop_lt {p : LoopPc} {k : ℕ} (hw : s₁.work n ≤ s.work n + k) (hpc : s₁.loop = s.loop)
    (hp : p.work s₁.active.length + k < s.loop.work s₁.active.length) :
    (s₁.setLoop p).work n < s.work n := by
  have hneed : (s₁.setLoop p).needactive = s₁.needactive := rfl
  have hset : (s₁.setLoop p).work n + s₁.loop.work s₁.active.length =
      s₁.work n + p.work s₁.active.length := by
    simp only [work, hneed]
    simp only [setLoop]
    omega
  rw [hpc] at hset
  omega

/-- A worker of the pool has less to do than before. -/
theorem setPool_lt {i : ℕ} (hi : i < n) {p : PoolPc} {k : ℕ} (hw : s₁.work n ≤ s.work n + k)
    (hpc : s₁.pool = s.pool) (hp : p.work + k < (s.pool i).work) :
    (s₁.setPool i p).work n < s.work n := by
  have hset := work_setPool (s := s₁) hi p
  rw [hpc] at hset
  omega

/-- An active thread has less to do than before. -/
theorem setActive_lt {i : ℕ} {p₀ p : ActivePc} (hi : s₁.active[i]? = some p₀) {k : ℕ}
    (hw : s₁.work n ≤ s.work n + k)
    (hp : p.weight s₁.needactive + k < p₀.weight s₁.needactive) :
    (s₁.setActive i p).work n < s.work n := by
  have hset := work_setActive (n := n) hi p
  omega

end State

end Dispatch
end WeakAyas
