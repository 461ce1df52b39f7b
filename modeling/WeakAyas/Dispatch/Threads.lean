/-
# The threads of a worker

One `EpollWorker`: the thread that accepts connections and calls `add_fd`, the
epoll thread (`loop`, and `drain_epoll`, which treats an event the same way),
the workers of the thread pool, and the active thread that `loop` starts for a
connection whose task is still in the pool.

Every acquisition and release of `fd_map` and of an `fd_mutex`, every access to
a flag, every `read`, every wait and every notification is a step of its own.
What the operating system decides is part of the label (`Choice`): the next
event, the result of a `read`, the thread that `notify_one` wakes; so is whether
a handler throws.  An event may name any descriptor at any time, as late or
spurious ones do.

A connection has a number of its own (`ConnId`), which stands for its socket and
for its `fd_info`; its descriptor is reused after `close`.  `read` takes its
bytes from the socket that the descriptor names at that moment.
-/

import WeakAyas.Wire.Package
import WeakAyas.Library.TransitionSystem
import Mathlib.Logic.Function.Basic

namespace WeakAyas
namespace Dispatch

abbrev Fd := ℤ

/-- The number of a connection, in the order of `accept`. -/
abbrev ConnId := ℕ

/-- The threads: pool workers and active threads are numbered. -/
inductive Tid where
  | acceptor
  | loop
  | pool (i : ℕ)
  | active (i : ℕ)
  deriving DecidableEq, Repr

/-- `fd_info`, and the thread that holds its mutex. -/
structure FdInfo where
  fdMutex : Option Tid
  fdInthreadpool : Bool
  needactive : Bool
  threadRunning : Bool
  deriving DecidableEq, Repr

/-- `fd_info::fd_info`. -/
def FdInfo.new : FdInfo := ⟨none, false, false, false⟩

/-! ### Where the threads are -/

/-- `EpollWorker::get_lock_fdinfo`. -/
inductive Lookup where
  | lock
  | find
  | unlock (info_ptr : Option ConnId)
  deriving DecidableEq, Repr

/-- `EpollWorker::close_fd`. -/
inductive CloseFd where
  | lock
  | erase
  | close
  | unlock
  deriving DecidableEq, Repr

/-- `TCPServer` accepting, and `EpollWorker::add_fd`. -/
inductive AcceptPc where
  | accept
  | lockMap (fd : Fd) (c : ConnId)
  | insert (fd : Fd) (c : ConnId)
  | unlockMap
  deriving DecidableEq, Repr

/-- The epoll thread: `loop` with `info_ptr = c`, and from `handleLookup` on
`handle_event` with its own `info_ptr = c'`. -/
inductive LoopPc where
  | epollWait
  | lookup (fd : Fd) (l : Lookup)
  | lockMap (fd : Fd) (c : ConnId)
  | checkRunning (fd : Fd) (c : ConnId)
  | setNeedactive (c : ConnId)
  | checkInthreadpool (fd : Fd) (c : ConnId)
  | spawnNeedactive (fd : Fd) (c : ConnId)
  | spawnRunning (fd : Fd) (c : ConnId)
  | spawn (fd : Fd) (c : ConnId)
  | unlockMap
  | unlockMapHandle (fd : Fd) (c : ConnId)
  | handleLookup (fd : Fd) (c : ConnId) (l : Lookup)
  | read (fd : Fd) (c c' : ConnId)
  | lockFd (fd : Fd) (c c' : ConnId) (data : Bytes)
  | setInthreadpool (fd : Fd) (c c' : ConnId) (data : Bytes)
  | unlockFd (fd : Fd) (c c' : ConnId) (data : Bytes)
  | enqueue (fd : Fd) (c c' : ConnId) (data : Bytes)
  | closeFd (fd : Fd) (c : ConnId) (k : CloseFd)
  | ended
  deriving DecidableEq, Repr

/-- A pool worker: `EpollWorker::enqueue_event_wrapper_nonstatic` on the event
`{fd, data}`. -/
inductive PoolPc where
  | idle
  | lookup (fd : Fd) (data : Bytes) (l : Lookup)
  | lockFd (fd : Fd) (data : Bytes) (c : ConnId)
  | parse (fd : Fd) (data : Bytes) (c : ConnId)
  | handleRequest (fd : Fd) (c : ConnId) (pkg : SocketPackage)
  | clearInthreadpool (fd : Fd) (c : ConnId)
  | notify (fd : Fd) (c : ConnId)
  | unlockFd (fd : Fd) (c : ConnId)

/-- An active thread with `info_ptr = c`, from `lookup` on in
`activefd_handle_event` with `info_ptr = c'`, and from `enqLookup` on in
`active_enqueue_event` with `info_ptr = c''`. -/
inductive ActivePc where
  | start (fd : Fd) (l : Lookup)
  | clearNeedactive (fd : Fd) (c : ConnId)
  | lookup (fd : Fd) (c : ConnId) (l : Lookup)
  | lockFd (fd : Fd) (c c' : ConnId)
  | checkInthreadpool (fd : Fd) (c c' : ConnId)
  | wait (fd : Fd) (c c' : ConnId)
  | asleep (fd : Fd) (c c' : ConnId)
  | relockFd (fd : Fd) (c c' : ConnId)
  | read (fd : Fd) (c c' : ConnId)
  | enqLookup (fd : Fd) (c c' : ConnId) (data : Bytes) (l : Lookup)
  | enqLockFd (fd : Fd) (c c' : ConnId) (data : Bytes) (c'' : ConnId)
  | enqParse (fd : Fd) (c c' : ConnId) (data : Bytes) (c'' : ConnId)
  | enqHandleRequest (fd : Fd) (c c' c'' : ConnId) (pkg : SocketPackage)
  | enqUnlockFd (fd : Fd) (c c' c'' : ConnId)
  | unlockFd (fd : Fd) (c c' : ConnId) (returned : Bool)
  | eraseFd (fd : Fd) (c : ConnId)
  | closeFd (fd : Fd) (c : ConnId) (k : CloseFd)
  | sleep (fd : Fd) (c : ConnId)
  | endLockFd (fd : Fd) (c : ConnId)
  | endCheck (fd : Fd) (c : ConnId)
  | endRunning (fd : Fd) (c : ConnId)
  | endNotify (fd : Fd) (c : ConnId)
  | endUnlockFd (fd : Fd) (c : ConnId) (again : Bool)
  | ended

/-- The connection on whose `fd_cond` the thread sleeps. -/
def ActivePc.sleepsOn : ActivePc → Option ConnId
  | asleep _ _ c' => some c'
  | _ => none

/-! ### States -/

/-- The worker, the pool and the sockets.  `reads` and `finished` record, for
every connection, the chunks read from its socket, and those given to
`handle_request` or rejected by `parse_sockpackage`. -/
structure State where
  socks : Fd → Option ConnId
  fdInfos : Fd → Option ConnId
  fdMap : Option Tid
  info : ConnId → FdInfo
  tasks : List (Fd × Bytes)
  acceptor : AcceptPc
  loop : LoopPc
  pool : ℕ → PoolPc
  active : List ActivePc
  nextConn : ConnId
  terminated : Bool
  reads : ConnId → List Bytes
  finished : ConnId → List Bytes

/-- Before the first connection. -/
def State.start : State where
  socks _ := none
  fdInfos _ := none
  fdMap := none
  info _ := .new
  tasks := []
  acceptor := .accept
  loop := .epollWait
  pool _ := .idle
  active := []
  nextConn := 0
  terminated := false
  reads _ := []
  finished _ := []

namespace State

variable (s : State)

def setAcceptor (p : AcceptPc) : State := { s with acceptor := p }

def setLoop (p : LoopPc) : State := { s with loop := p }

def setPool (i : ℕ) (p : PoolPc) : State := { s with pool := Function.update s.pool i p }

def setActive (i : ℕ) (p : ActivePc) : State := { s with active := s.active.set i p }

/-- A new thread. -/
def pushActive (p : ActivePc) : State := { s with active := s.active ++ [p] }

def setFdMap (t : Option Tid) : State := { s with fdMap := t }

def setInfo (c : ConnId) (info : FdInfo) : State :=
  { s with info := Function.update s.info c info }

def setFdMutex (c : ConnId) (t : Option Tid) : State := s.setInfo c { s.info c with fdMutex := t }

def setFdInthreadpool (c : ConnId) (b : Bool) : State :=
  s.setInfo c { s.info c with fdInthreadpool := b }

def setNeedactive (c : ConnId) (b : Bool) : State := s.setInfo c { s.info c with needactive := b }

def setThreadRunning (c : ConnId) (b : Bool) : State :=
  s.setInfo c { s.info c with threadRunning := b }

def setFdInfos (fd : Fd) (c : Option ConnId) : State :=
  { s with fdInfos := Function.update s.fdInfos fd c }

/-- `close(fd)`. -/
def closeSock (fd : Fd) : State := { s with socks := Function.update s.socks fd none }

/-- The next connection is accepted as `fd`. -/
def openSock (fd : Fd) : State :=
  { s with
    socks := Function.update s.socks fd (some s.nextConn)
    nextConn := s.nextConn + 1 }

def setTasks (tasks : List (Fd × Bytes)) : State := { s with tasks := tasks }

/-- The chunk `d` has been read from the socket of `c`. -/
def pushRead (c : ConnId) (d : Bytes) : State :=
  { s with reads := Function.update s.reads c (s.reads c ++ [d]) }

/-- The chunk `d` of `c` has been handed to `handle_request`, or rejected. -/
def pushFinished (c : ConnId) (d : Bytes) : State :=
  { s with finished := Function.update s.finished c (s.finished c ++ [d]) }

/-- `lk(fd_map)`, where the mutex is free. -/
def lockMap (t : Tid) : Option State := if s.fdMap = none then some (s.setFdMap (some t)) else none

/-- `lk(*info_ptr->fd_mutex)`, where the mutex is free. -/
def lockFd (t : Tid) (c : ConnId) : Option State :=
  if (s.info c).fdMutex = none then some (s.setFdMutex c (some t)) else none

/-- What `read(fd, buf, sizeof(buf))` can do. -/
inductive ReadResult where
  | data (d : Bytes)
  | eof
  | eintr
  | eagain
  | error
  deriving DecidableEq, Repr

/-- `read` with the result `r`: data comes from the socket that `fd` names, and
without one there is only an error. -/
def receive (fd : Fd) (r : ReadResult) : Option State :=
  match s.socks fd, r with
  | some c, .data d =>
    if 1 ≤ d.length ∧ d.length ≤ maxBuffersize then some (s.pushRead c d) else none
  | some _, _ => some s
  | none, .error => some s
  | none, _ => none

/-- `fd_cond.notify_one()`: it wakes `who` that sleeps, `none` only when nobody
does. -/
def notifyOne (c : ConnId) : Option ℕ → Option State
  | some i => match s.active[i]? with
    | some (.asleep fd c₁ c') =>
      if c' = c then some (s.setActive i (.relockFd fd c₁ c')) else none
    | _ => none
  | none => if ∀ p ∈ s.active, p.sleepsOn ≠ some c then some s else none

end State

/-! ### Steps -/

/-- What is open in a step: `go` where nothing is.  What the sockets hold is not part of
the state: `event` may be any report of `epoll_wait`, and `stop` is the report of no
event at all once `running` is off, which ends `drain_epoll`. -/
inductive Choice where
  | go
  | accepted (fd : Fd)
  | event (fd : Fd)
  | stop
  | read (r : State.ReadResult)
  | thrown
  | wake (who : Option ℕ)
  | spurious
  deriving DecidableEq, Repr

namespace State

/-- `TCPServer`'s `accept`, then `EpollWorker::add_fd`. -/
def acceptNext (s : State) (ch : Choice) : Option State :=
  match s.acceptor with
  | .accept => match ch with
    | .accepted fd => match s.socks fd with
      | none => some ((s.openSock fd).setAcceptor (.lockMap fd s.nextConn))
      | some _ => none
    | _ => none
  | .lockMap fd c => (s.lockMap .acceptor).map (·.setAcceptor (.insert fd c))
  | .insert fd c => some ((s.setFdInfos fd (some c)).setAcceptor .unlockMap)
  | .unlockMap => some ((s.setFdMap none).setAcceptor .accept)

/-- The epoll thread: `EpollWorker::loop` and `handle_event`. -/
def loopNext (s : State) (ch : Choice) : Option State :=
  match s.loop with
  | .epollWait => match ch with
    | .event fd => some (s.setLoop (.lookup fd .lock))
    | .stop => some (s.setLoop .ended)  -- `running` is off, and no event is reported
    | _ => none
  | .lookup fd .lock => (s.lockMap .loop).map (·.setLoop (.lookup fd .find))
  | .lookup fd .find => some (s.setLoop (.lookup fd (.unlock (s.fdInfos fd))))
  | .lookup _ (.unlock none) => some ((s.setFdMap none).setLoop .epollWait)
  | .lookup fd (.unlock (some c)) => some ((s.setFdMap none).setLoop (.lockMap fd c))
  | .lockMap fd c => (s.lockMap .loop).map (·.setLoop (.checkRunning fd c))
  | .checkRunning fd c => some (s.setLoop
      (if (s.info c).threadRunning then .setNeedactive c else .checkInthreadpool fd c))
  | .setNeedactive c => some ((s.setNeedactive c true).setLoop .unlockMap)
  | .checkInthreadpool fd c => some (s.setLoop
      (if (s.info c).fdInthreadpool then .spawnNeedactive fd c else .unlockMapHandle fd c))
  | .spawnNeedactive fd c => some ((s.setNeedactive c true).setLoop (.spawnRunning fd c))
  | .spawnRunning fd c => some ((s.setThreadRunning c true).setLoop (.spawn fd c))
  | .spawn fd _ => some ((s.pushActive (.start fd .lock)).setLoop .unlockMap)
  | .unlockMap => some ((s.setFdMap none).setLoop .epollWait)
  | .unlockMapHandle fd c => some ((s.setFdMap none).setLoop (.handleLookup fd c .lock))
  | .handleLookup fd c .lock => (s.lockMap .loop).map (·.setLoop (.handleLookup fd c .find))
  | .handleLookup fd c .find => some (s.setLoop (.handleLookup fd c (.unlock (s.fdInfos fd))))
  | .handleLookup _ _ (.unlock none) => some ((s.setFdMap none).setLoop .epollWait)
  | .handleLookup fd c (.unlock (some c')) => some ((s.setFdMap none).setLoop (.read fd c c'))
  | .read fd c c' => match ch with
    | .read r => (s.receive fd r).map (·.setLoop (match r with
      | .data d => .lockFd fd c c' d
      | .eof => .closeFd fd c .lock
      | .eintr => .handleLookup fd c .lock  -- calls itself
      | .eagain => .epollWait
      | .error => .closeFd fd c .lock))
    | _ => none
  | .lockFd fd c c' d => (s.lockFd .loop c').map (·.setLoop (.setInthreadpool fd c c' d))
  | .setInthreadpool fd c c' d => some ((s.setFdInthreadpool c' true).setLoop (.unlockFd fd c c' d))
  | .unlockFd fd c c' d => some ((s.setFdMutex c' none).setLoop (.enqueue fd c c' d))
  | .enqueue fd _ _ d => some ((s.setTasks (s.tasks ++ [(fd, d)])).setLoop .epollWait)
  | .closeFd fd c .lock => (s.lockMap .loop).map (·.setLoop (.closeFd fd c .erase))
  | .closeFd fd c .erase => some ((s.setFdInfos fd none).setLoop (.closeFd fd c .close))
  | .closeFd fd c .close => some ((s.closeSock fd).setLoop (.closeFd fd c .unlock))
  | .closeFd _ _ .unlock => some ((s.setFdMap none).setLoop .epollWait)
  | .ended => none

/-- A pool worker: `ThreadPool::worker` and
`EpollWorker::enqueue_event_wrapper_nonstatic`. -/
def poolNext (s : State) (i : ℕ) (ch : Choice) : Option State :=
  match s.pool i with
  | .idle => match s.tasks with
    | [] => none
    | (fd, d) :: tasks => some ((s.setTasks tasks).setPool i (.lookup fd d .lock))
  | .lookup fd d .lock => (s.lockMap (.pool i)).map (·.setPool i (.lookup fd d .find))
  | .lookup fd d .find => some (s.setPool i (.lookup fd d (.unlock (s.fdInfos fd))))
  | .lookup _ _ (.unlock none) => some ((s.setFdMap none).setPool i .idle)
  | .lookup fd d (.unlock (some c)) => some ((s.setFdMap none).setPool i (.lockFd fd d c))
  | .lockFd fd d c => (s.lockFd (.pool i) c).map (·.setPool i (.parse fd d c))
  | .parse fd d c => match parseSockpackage d with
    | .ok none => some ((s.pushFinished c d).setPool i (.unlockFd fd c))
    | .ok (some pkg) => some ((s.pushFinished c d).setPool i (.handleRequest fd c pkg))
    | .error _ => none
  | .handleRequest fd c _ => match ch with
    | .thrown => some (s.setPool i (.unlockFd fd c))  -- caught by `ThreadPool::worker`
    | _ => some (s.setPool i (.clearInthreadpool fd c))
  | .clearInthreadpool fd c => some ((s.setFdInthreadpool c false).setPool i (.notify fd c))
  | .notify fd c => match ch with
    | .wake who => (s.notifyOne c who).map (·.setPool i (.unlockFd fd c))
    | _ => none
  | .unlockFd _ c => some ((s.setFdMutex c none).setPool i .idle)

/-- The active thread `i`: the function that `loop` gives to `std::thread`,
`activefd_handle_event` and `active_enqueue_event`. -/
def activeNext (s : State) (i : ℕ) (ch : Choice) : ActivePc → Option State
  | .start fd .lock => (s.lockMap (.active i)).map (·.setActive i (.start fd .find))
  | .start fd .find => some (s.setActive i (.start fd (.unlock (s.fdInfos fd))))
  | .start _ (.unlock none) => some ((s.setFdMap none).setActive i .ended)
  | .start fd (.unlock (some c)) => some ((s.setFdMap none).setActive i (.clearNeedactive fd c))
  | .clearNeedactive fd c => some ((s.setNeedactive c false).setActive i (.lookup fd c .lock))
  | .lookup fd c .lock => (s.lockMap (.active i)).map (·.setActive i (.lookup fd c .find))
  | .lookup fd c .find => some (s.setActive i (.lookup fd c (.unlock (s.fdInfos fd))))
  | .lookup fd c (.unlock none) => some ((s.setFdMap none).setActive i (.eraseFd fd c))
  | .lookup fd c (.unlock (some c')) => some ((s.setFdMap none).setActive i (.lockFd fd c c'))
  | .lockFd fd c c' => (s.lockFd (.active i) c').map (·.setActive i (.checkInthreadpool fd c c'))
  | .checkInthreadpool fd c c' => some (s.setActive i
      (if (s.info c').fdInthreadpool then .wait fd c c' else .read fd c c'))
  | .wait fd c c' => some ((s.setFdMutex c' none).setActive i (.asleep fd c c'))
  | .asleep fd c c' => match ch with
    | .spurious => some (s.setActive i (.relockFd fd c c'))
    | _ => none
  | .relockFd fd c c' => (s.lockFd (.active i) c').map (·.setActive i (.checkInthreadpool fd c c'))
  | .read fd c c' => match ch with
    | .read r => (s.receive fd r).map (·.setActive i (match r with
      | .data d => .enqLookup fd c c' d .lock
      | .eof => .unlockFd fd c c' false
      | .eintr => .read fd c c'
      | .eagain => .unlockFd fd c c' true
      | .error => .unlockFd fd c c' false))
    | _ => none
  | .enqLookup fd c c' d .lock =>
    (s.lockMap (.active i)).map (·.setActive i (.enqLookup fd c c' d .find))
  | .enqLookup fd c c' d .find =>
    some (s.setActive i (.enqLookup fd c c' d (.unlock (s.fdInfos fd))))
  | .enqLookup fd c c' _ (.unlock none) => some ((s.setFdMap none).setActive i (.read fd c c'))
  | .enqLookup fd c c' d (.unlock (some c'')) =>
    some ((s.setFdMap none).setActive i (.enqLockFd fd c c' d c''))
  | .enqLockFd fd c c' d c'' =>
    (s.lockFd (.active i) c'').map (·.setActive i (.enqParse fd c c' d c''))
  | .enqParse fd c c' d c'' => match parseSockpackage d with
    | .ok none => some ((s.pushFinished c'' d).setActive i (.enqUnlockFd fd c c' c''))
    | .ok (some pkg) =>
      some ((s.pushFinished c'' d).setActive i (.enqHandleRequest fd c c' c'' pkg))
    | .error _ => none
  | .enqHandleRequest fd c c' c'' _ => match ch with
    | .thrown => some { s with terminated := true }  -- `std::terminate`
    | _ => some (s.setActive i (.enqUnlockFd fd c c' c''))
  | .enqUnlockFd fd c c' c'' => some ((s.setFdMutex c'' none).setActive i (.read fd c c'))
  | .unlockFd fd c c' returned => some ((s.setFdMutex c' none).setActive i
      (if returned then .sleep fd c else .eraseFd fd c))
  | .eraseFd fd c => some (s.setActive i (.closeFd fd c .lock))
  | .closeFd fd c .lock => (s.lockMap (.active i)).map (·.setActive i (.closeFd fd c .erase))
  | .closeFd fd c .erase => some ((s.setFdInfos fd none).setActive i (.closeFd fd c .close))
  | .closeFd fd c .close => some ((s.closeSock fd).setActive i (.closeFd fd c .unlock))
  | .closeFd _ _ .unlock => some ((s.setFdMap none).setActive i .ended)
  | .sleep fd c => some (s.setActive i (.endLockFd fd c))
  | .endLockFd fd c => (s.lockFd (.active i) c).map (·.setActive i (.endCheck fd c))
  | .endCheck fd c => some (s.setActive i
      (if (s.info c).needactive then .endUnlockFd fd c true else .endRunning fd c))
  | .endRunning fd c => some ((s.setThreadRunning c false).setActive i (.endNotify fd c))
  | .endNotify fd c => match ch with
    | .wake who => (s.notifyOne c who).map (·.setActive i (.endUnlockFd fd c false))
    | _ => none
  | .endUnlockFd fd c again => some ((s.setFdMutex c none).setActive i
      (if again then .clearNeedactive fd c else .ended))
  | .ended => none

/-- One step of the thread `t`, with `n` workers in the pool. -/
def next (n : ℕ) (s : State) (t : Tid) (ch : Choice) : Option State :=
  if s.terminated then none
  else match t with
    | .acceptor => s.acceptNext ch
    | .loop => s.loopNext ch
    | .pool i => if i < n then s.poolNext i ch else none
    | .active i => (s.active[i]?).bind (s.activeNext i ch)

end State

/-- A worker with `n` threads in the pool; a step is one of a thread, with what
is open in it. -/
def worker (n : ℕ) : TransitionSystem State (Tid × Choice) where
  init s := s = .start
  next s l := s.next n l.1 l.2

theorem reachable_start (n : ℕ) (ok : State → Tid × Choice → Prop) :
    (worker n).Reachable ok .start := .init rfl

/-! ### Labels of common runs -/

/-- The epoll thread reads a chunk from descriptor 5 and hands it to the pool. -/
def nextChunk (d : Bytes) : List (Tid × Choice) :=
  (.loop, .event 5) :: List.replicate 10 (.loop, .go) ++
    (.loop, .read (.data d)) :: List.replicate 4 (.loop, .go)

/-- A connection on descriptor 5, and its first chunk. -/
def firstChunk (d : Bytes) : List (Tid × Choice) :=
  (.acceptor, .accepted 5) :: List.replicate 3 (.acceptor, .go) ++ nextChunk d

/-- The next event of the connection finds the task in the pool. -/
def secondEvent : List (Tid × Choice) := (.loop, .event 5) :: List.replicate 10 (.loop, .go)

/-- A pool worker runs the task. -/
def runTask : List (Tid × Choice) :=
  List.replicate 8 (.pool 0, .go) ++ [(.pool 0, .wake none), (.pool 0, .go)]

/-- A pool worker runs the task for which an active thread waits. -/
def runTaskWaking : List (Tid × Choice) :=
  List.replicate 8 (.pool 0, .go) ++ [(.pool 0, .wake (some 0)), (.pool 0, .go)]

/-- An active thread waits while the chunk `d` is in the pool. -/
def waiting (d : Bytes) : List (Tid × Choice) :=
  firstChunk d ++ secondEvent ++ List.replicate 10 (.active 0, .go)

/-- The task has been done, and the active thread finds nothing more to read. -/
def drained (d : Bytes) : List (Tid × Choice) :=
  waiting d ++ runTaskWaking ++ [(.active 0, .go), (.active 0, .go), (.active 0, .read .eagain)]

end Dispatch
end WeakAyas
