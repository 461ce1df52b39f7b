/-
# What the threads hold

Where a thread is in its code says which `fd_mutex` it holds, which descriptor
it drives or is in charge of, which `info_ptr` it relies on, and which
connection `loop` is about to look at (`View`).  The shared state and the views
of all threads are what the protocol speaks about (`Obs`); `fd_map` and
`needactive` are not in it.
-/

import WeakAyas.Dispatch.Protocol
import WeakAyas.Library.Ownership

namespace WeakAyas
namespace Dispatch

/-- What a thread holds: the `fd_mutex`, the descriptor that it drives, the one
whose chunk it is in charge of, its copies of `info_ptr`, and the candidate of
`loop`. -/
structure View where
  mutex : Option ConnId
  drives : Option (Fd × Bool)
  owns : Option (Fd × Stage)
  ptrs : List (Option ConnId)
  cand : Option (Fd × ConnId)

/-- A mutex is held, or it is not. -/
def View.locks (v : View) : Option (ConnId × Unit) := v.mutex.map (·, ())

/-- The thread that holds a mutex. -/
def lockedBy (t : Option Tid) : Option (Tid × Unit) := t.map (·, ())

/-- Nothing. -/
def View.idle : View := ⟨none, none, none, [], none⟩

/-- The copy of `info_ptr` that a lookup is about to return. -/
def Lookup.ptrs : Lookup → List (Option ConnId)
  | unlock info_ptr => [info_ptr]
  | _ => []

def AcceptPc.view : AcceptPc → View
  | accept | unlockMap => .idle
  | lockMap fd c | insert fd c => ⟨none, none, some (fd, .accepted), [some c], none⟩

/-- `close_fd` by a driver, with `running` for `thread_running`. -/
def CloseFd.view (running : Bool) (fd : Fd) (c : ConnId) : CloseFd → View
  | lock | erase => ⟨none, some (fd, running), some (fd, .taken), [some c], none⟩
  | close => ⟨none, some (fd, running), some (fd, .erased), [some c], none⟩
  | unlock => .idle

def LoopPc.view : LoopPc → View
  | epollWait | setNeedactive _ | unlockMap | ended => .idle
  | lookup fd (.unlock (some c)) | lockMap fd c | checkRunning fd c =>
    ⟨none, none, none, [], some (fd, c)⟩
  | lookup _ _ => .idle
  | checkInthreadpool fd c | spawnNeedactive fd c | spawnRunning fd c =>
    ⟨none, some (fd, false), none, [some c], none⟩
  | spawn fd c => ⟨none, some (fd, true), none, [some c], none⟩
  | unlockMapHandle fd c => ⟨none, some (fd, false), some (fd, .taken), [some c], none⟩
  | handleLookup fd c l => ⟨none, some (fd, false), some (fd, .taken), some c :: l.ptrs, none⟩
  | read fd c c' => ⟨none, some (fd, false), some (fd, .taken), [some c, some c'], none⟩
  | lockFd fd c c' d => ⟨none, some (fd, false), some (fd, .got d), [some c, some c'], none⟩
  | setInthreadpool fd c c' d =>
    ⟨some c', some (fd, false), some (fd, .got d), [some c, some c'], none⟩
  | unlockFd fd c c' d =>
    ⟨some c', some (fd, false), some (fd, .flagged d), [some c, some c'], none⟩
  | enqueue fd c c' d => ⟨none, some (fd, false), some (fd, .flagged d), [some c, some c'], none⟩
  | closeFd fd c k => k.view false fd c

def PoolPc.view : PoolPc → View
  | idle => .idle
  | lookup fd d l => ⟨none, none, some (fd, .executing d), l.ptrs, none⟩
  | lockFd fd d c => ⟨none, none, some (fd, .executing d), [some c], none⟩
  | parse fd d c => ⟨some c, none, some (fd, .executing d), [some c], none⟩
  | handleRequest fd c _ | clearInthreadpool fd c =>
    ⟨some c, none, some (fd, .handling), [some c], none⟩
  | notify _ c | unlockFd _ c => ⟨some c, none, none, [], none⟩

/-- From `enqLockFd` on there is no next step: the thread waits for a mutex that
it holds, so `none` stands among the pointers that all point somewhere. -/
def ActivePc.view : ActivePc → View
  | start fd l => ⟨none, some (fd, true), none, l.ptrs, none⟩
  | clearNeedactive fd c | sleep fd c | endLockFd fd c =>
    ⟨none, some (fd, true), none, [some c], none⟩
  | lookup fd c l => ⟨none, some (fd, true), none, some c :: l.ptrs, none⟩
  | lockFd fd c c' | asleep fd c c' | relockFd fd c c' =>
    ⟨none, some (fd, true), none, [some c, some c'], none⟩
  | checkInthreadpool fd c c' | wait fd c c' | unlockFd fd c c' true =>
    ⟨some c', some (fd, true), none, [some c, some c'], none⟩
  | read fd c c' | unlockFd fd c c' false =>
    ⟨some c', some (fd, true), some (fd, .taken), [some c, some c'], none⟩
  | enqLookup fd c c' d l =>
    ⟨some c', some (fd, true), some (fd, .got d), some c :: some c' :: l.ptrs, none⟩
  | enqLockFd fd c c' d c'' =>
    ⟨some c', some (fd, true), some (fd, .got d), [some c, some c', some c''], none⟩
  | enqParse fd _ c' _ _ | enqHandleRequest fd _ c' _ _ | enqUnlockFd fd _ c' _ =>
    ⟨some c', some (fd, true), some (fd, .taken), [none], none⟩
  | eraseFd fd c => ⟨none, some (fd, true), some (fd, .taken), [some c], none⟩
  | closeFd fd c k => k.view true fd c
  | endCheck fd c | endRunning fd c | endUnlockFd fd c true =>
    ⟨some c, some (fd, true), none, [some c], none⟩
  | endNotify _ c | endUnlockFd _ c false => ⟨some c, none, none, [], none⟩
  | ended => .idle

/-- The thread relies on its pointers for this descriptor. -/
def View.On (v : View) (fd : Fd) : Prop :=
  (∃ b, v.drives = some (fd, b)) ∨ ∃ stage, v.owns = some (fd, stage)

/-- A thread that drives one descriptor at most, and is in charge of no other. -/
theorem View.eq_of_on {v : View} {fd : Fd}
    (hdrives : v.drives = none ∨ ∃ b, v.drives = some (fd, b))
    (howns : v.owns = none ∨ ∃ stage, v.owns = some (fd, stage)) : ∀ fd', v.On fd' → fd' = fd := by
  rintro fd' (⟨b, hb⟩ | ⟨stage, hs⟩)
  · rcases hdrives with hnone | ⟨b', hb'⟩
    · rw [hnone] at hb
      cases hb
    · rw [hb'] at hb
      cases hb
      rfl
  · rcases howns with hnone | ⟨stage', hs'⟩
    · rw [hnone] at hs
      cases hs
    · rw [hs'] at hs
      cases hs
      rfl

/-! ### What the protocol speaks about -/

/-- The shared state, and the views of the threads. -/
structure Obs where
  view : Tid → View
  mutex : ConnId → Option Tid
  flag : ConnId → Bool
  running : ConnId → Bool
  socks : Fd → Option ConnId
  fdInfos : Fd → Option ConnId
  tasks : List (Fd × Bytes)
  nextConn : ConnId
  reads : ConnId → List Bytes
  finished : ConnId → List Bytes

/-- The thread `t` gets on to the view `v`. -/
def Obs.setView (o : Obs) (t : Tid) (v : View) : Obs :=
  { o with view := Function.update o.view t v }

/-- The view of every thread. -/
def State.view (s : State) : Tid → View
  | .acceptor => s.acceptor.view
  | .loop => s.loop.view
  | .pool i => (s.pool i).view
  | .active i => ((s.active[i]?).map ActivePc.view).getD .idle

def State.obs (s : State) : Obs where
  view := s.view
  mutex c := (s.info c).fdMutex
  flag c := (s.info c).fdInthreadpool
  running c := (s.info c).threadRunning
  socks := s.socks
  fdInfos := s.fdInfos
  tasks := s.tasks
  nextConn := s.nextConn
  reads := s.reads
  finished := s.finished

/-- The view of an active thread is that of its place. -/
theorem view_active {s : State} {i : ℕ} {p : ActivePc} (hi : s.active[i]? = some p) :
    s.obs.view (.active i) = p.view := by
  simp [State.obs, State.view, hi]

namespace State

variable (s : State)

/-- A move of the acceptor changes its view only. -/
@[simp] theorem obs_setAcceptor (p : AcceptPc) :
    (s.setAcceptor p).obs = s.obs.setView .acceptor p.view := by
  have hview : (s.setAcceptor p).view = Function.update s.view .acceptor p.view := by
    funext t
    cases t <;> rfl
  rw [Obs.setView, show s.obs.view = s.view from rfl, ← hview]
  rfl

/-- A move of the epoll thread. -/
@[simp] theorem obs_setLoop (p : LoopPc) :
    (s.setLoop p).obs = s.obs.setView .loop p.view := by
  have hview : (s.setLoop p).view = Function.update s.view .loop p.view := by
    funext t
    cases t <;> rfl
  rw [Obs.setView, show s.obs.view = s.view from rfl, ← hview]
  rfl

/-- A move of a pool worker. -/
@[simp] theorem obs_setPool (i : ℕ) (p : PoolPc) :
    (s.setPool i p).obs = s.obs.setView (.pool i) p.view := by
  have hview : (s.setPool i p).view = Function.update s.view (.pool i) p.view := by
    funext t
    cases t with
    | pool j =>
      rcases eq_or_ne j i with rfl | hne
      · simp [view, setPool]
      · simp [view, setPool, hne]
    | _ => rfl
  rw [Obs.setView, show s.obs.view = s.view from rfl, ← hview]
  rfl

/-- A move of an active thread. -/
theorem obs_setActive {i : ℕ} {p₀ : ActivePc} (hi : s.active[i]? = some p₀) (p : ActivePc) :
    (s.setActive i p).obs = s.obs.setView (.active i) p.view := by
  have hlt : i < s.active.length := (List.getElem?_eq_some_iff.1 hi).1
  have hview : (s.setActive i p).view = Function.update s.view (.active i) p.view := by
    funext t
    cases t with
    | active j =>
      rcases eq_or_ne j i with rfl | hne
      · simp [view, setActive, hlt]
      · simp [view, setActive, hne, hne.symm]
    | _ => rfl
  rw [Obs.setView, show s.obs.view = s.view from rfl, ← hview]
  rfl

/-- A new active thread. -/
theorem obs_pushActive (p : ActivePc) :
    (s.pushActive p).obs = s.obs.setView (.active s.active.length) p.view := by
  have hview : (s.pushActive p).view = Function.update s.view (.active s.active.length) p.view := by
    funext t
    cases t with
    | active j =>
      rcases lt_trichotomy j s.active.length with hlt | rfl | hgt
      · simp [view, pushActive, hlt, hlt.ne, List.getElem?_append_left]
      · simp [view, pushActive]
      · have h₁ : (s.active ++ [p])[j]? = none := by simp; omega
        have h₂ : s.active[j]? = none := by simp; omega
        simp [view, pushActive, h₁, h₂, hgt.ne']
    | _ => rfl
  rw [Obs.setView, show s.obs.view = s.view from rfl, ← hview]
  rfl

/-- A new `fd_info` shows in its mutex and its two flags; `needactive` is not observed. -/
theorem obs_setInfo (c : ConnId) (info : FdInfo) :
    (s.setInfo c info).obs =
      { s.obs with
        mutex := Function.update s.obs.mutex c info.fdMutex
        flag := Function.update s.obs.flag c info.fdInthreadpool
        running := Function.update s.obs.running c info.threadRunning } := by
  have hview : (s.setInfo c info).view = s.view := by
    funext t
    cases t <;> rfl
  simp only [obs, hview]
  simp only [setInfo, map_update]

/-- Writing the mutex that is there changes nothing. -/
theorem update_mutex_self (c : ConnId) :
    Function.update s.obs.mutex c (s.info c).fdMutex = s.obs.mutex :=
  Function.update_eq_self c s.obs.mutex

/-- The same of `fd_inthreadpool`. -/
theorem update_flag_self (c : ConnId) :
    Function.update s.obs.flag c (s.info c).fdInthreadpool = s.obs.flag :=
  Function.update_eq_self c s.obs.flag

/-- The same of `thread_running`. -/
theorem update_running_self (c : ConnId) :
    Function.update s.obs.running c (s.info c).threadRunning = s.obs.running :=
  Function.update_eq_self c s.obs.running

/-- An `fd_mutex` is locked or unlocked. -/
@[simp] theorem obs_setFdMutex (c : ConnId) (t : Option Tid) :
    (s.setFdMutex c t).obs = { s.obs with mutex := Function.update s.obs.mutex c t } := by
  simp only [setFdMutex, obs_setInfo, update_flag_self, update_running_self]

/-- A write of `fd_inthreadpool`. -/
@[simp] theorem obs_setFdInthreadpool (c : ConnId) (b : Bool) :
    (s.setFdInthreadpool c b).obs = { s.obs with flag := Function.update s.obs.flag c b } := by
  simp only [setFdInthreadpool, obs_setInfo, update_mutex_self, update_running_self]

/-- A write of `needactive` is not observed. -/
@[simp] theorem obs_setNeedactive (c : ConnId) (b : Bool) : (s.setNeedactive c b).obs = s.obs := by
  simp only [setNeedactive, obs_setInfo, update_mutex_self, update_flag_self, update_running_self]

/-- A write of `thread_running`. -/
@[simp] theorem obs_setThreadRunning (c : ConnId) (b : Bool) :
    (s.setThreadRunning c b).obs =
      { s.obs with running := Function.update s.obs.running c b } := by
  simp only [setThreadRunning, obs_setInfo, update_mutex_self, update_flag_self]

/-- An entry of `fd_infos` is inserted or erased. -/
@[simp] theorem obs_setFdInfos (fd : Fd) (c : Option ConnId) :
    (s.setFdInfos fd c).obs = { s.obs with fdInfos := Function.update s.obs.fdInfos fd c } := rfl

/-- A connection is accepted. -/
@[simp] theorem obs_openSock (fd : Fd) :
    (s.openSock fd).obs =
      { s.obs with
        socks := Function.update s.obs.socks fd (some s.obs.nextConn)
        nextConn := s.obs.nextConn + 1 } := rfl

/-- A descriptor is closed. -/
@[simp] theorem obs_closeSock (fd : Fd) :
    (s.closeSock fd).obs = { s.obs with socks := Function.update s.obs.socks fd none } := rfl

/-- The queue of the pool changes. -/
@[simp] theorem obs_setTasks (tasks : List (Fd × Bytes)) :
    (s.setTasks tasks).obs = { s.obs with tasks := tasks } := rfl

/-- A chunk is read. -/
@[simp] theorem obs_pushRead (c : ConnId) (d : Bytes) :
    (s.pushRead c d).obs =
      { s.obs with reads := Function.update s.obs.reads c (s.obs.reads c ++ [d]) } := rfl

/-- A chunk is handed on, or rejected. -/
@[simp] theorem obs_pushFinished (c : ConnId) (d : Bytes) :
    (s.pushFinished c d).obs =
      { s.obs with finished := Function.update s.obs.finished c (s.obs.finished c ++ [d]) } := rfl

/-- The epoll thread locks or unlocks an `fd_mutex` in its move. -/
theorem obs_setFdMutex_setLoop (c : ConnId) (t : Option Tid) (p : LoopPc) :
    ((s.setFdMutex c t).setLoop p).obs =
      { s.obs with mutex := Function.update s.obs.mutex c t }.setView .loop p.view := by
  rw [obs_setLoop, obs_setFdMutex]

/-- A pool worker does. -/
theorem obs_setFdMutex_setPool (c : ConnId) (t : Option Tid) (i : ℕ) (p : PoolPc) :
    ((s.setFdMutex c t).setPool i p).obs =
      { s.obs with mutex := Function.update s.obs.mutex c t }.setView (.pool i) p.view := by
  rw [obs_setPool, obs_setFdMutex]

/-- An active thread does. -/
theorem obs_setFdMutex_setActive {i : ℕ} {p₀ : ActivePc} (hi : s.active[i]? = some p₀) (c : ConnId)
    (t : Option Tid) (p : ActivePc) :
    ((s.setFdMutex c t).setActive i p).obs =
      { s.obs with mutex := Function.update s.obs.mutex c t }.setView (.active i) p.view := by
  rw [obs_setActive (s.setFdMutex c t) hi, obs_setFdMutex]

end State

end Dispatch
end WeakAyas
