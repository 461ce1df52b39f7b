/-
# The life of the server

`TCPServer::start`, `stop` and `accept_loop` (`TCPServer.cpp`, lines 31-147 and
179-226) with the closes of the `EpollWorker`s (`EpollWorker.cpp`, lines 378-383),
among other threads of the process that open and close descriptors.

| the owner | `accept_loop` |
| --- | --- |
| `socket`, `setsockopt`, `bind`, `listen` | |
| `epoll_create1`, `eventfd`, `epoll_ctl`, thread | |
| | `epoll_wait`, `accept`, `add_fd`, `client_sockets` |
| `running = false`, `write(notify_fd)` | `read(notify_fd)` |
| `join`, `shutdown` and `close` of `client_sockets` | |
| `close` three times | |

Where `start` fails the owner goes on with `stop`, in the destructor.
-/

import WeakAyas.Library.Handles
import WeakAyas.Library.TransitionSystem

namespace WeakAyas
namespace Server

open TransitionSystem Handles

/-! ### The threads -/

/-- The next action of the owner: `start` to `thread`, `serving` between `start` and
`stop`, and `stop` from `test` on. -/
inductive TCPServerPc where
  | socket
  | setsockopt
  | bind
  | listen
  | epoll
  | addSock
  | eventfd
  | addNotify
  | thread
  | serving
  | test
  | setCloseAll
  | clearRunning
  | notify
  | join
  | shutdown (todo : List ℕ)
  | close (fd : ℕ) (todo : List ℕ)
  | closeSock
  | closeNotify
  | closeEpoll
  | stopped
  deriving DecidableEq, Repr

/-- What `epoll_wait` reports. -/
inductive AcceptEvent where
  | sock
  | notify
  deriving DecidableEq, Repr

/-- The next action of `accept_loop`, with the events that are left of one call: the
test of its loop, `epoll_wait`, the next event, `accept`, `add_fd`, `client_sockets`, and
`notify_false`.  It has `ended` also before it is there. -/
inductive AcceptLoopPc where
  | test
  | waiting
  | batch (events : List AcceptEvent)
  | accept (events : List AcceptEvent)
  | addFd (fd : ℕ) (events : List AcceptEvent)
  | push (fd : ℕ) (events : List AcceptEvent)
  | notifyFalse
  | ended
  deriving DecidableEq, Repr

/-- The members of `TCPServer`, `none` for a descriptor that is -1, with the flag
`*stop_all`, the calls of `add_fd` with the index of their worker, the connections that
are open, and the descriptors of the process. -/
structure TCPServer where
  serverSock : Option ℕ
  acceptEpollFd : Option ℕ
  notifyFd : Option ℕ
  running : Bool
  stopAll : Bool
  closeAll : Bool
  notified : Bool
  workers : ℕ
  nextWorker : ℕ
  added : List (ℕ × ℕ)
  clientSockets : List ℕ
  connections : List ℕ
  table : Table
  owner : TCPServerPc
  acceptLoop : AcceptLoopPc

/-- The steps: of the owner and of `accept_loop` with what the calls return, of the
workers that close a connection, and of the other threads of the process; `stopAgain` is
another call of `stop`, `call` is a call that creates no descriptor. -/
inductive TCPServerStep where
  | socket (fd : Option ℕ)
  | epoll (fd : Option ℕ)
  | eventfd (fd : Option ℕ)
  | call (ok : Bool)
  | owner
  | stopAgain
  | acceptLoop
  | wake (events : List AcceptEvent)
  | accept (fd : Option ℕ)
  | interrupted
  | epollFails
  | workerCloses (fd : ℕ)
  | stopAll
  | opens (fd : ℕ)
  | closes (fd : ℕ)
  deriving DecidableEq, Repr

namespace TCPServer

/-- A call of `start` that creates no descriptor. -/
def callNext (s : TCPServer) (ok : Bool) : Option TCPServer :=
  match s.owner with
  | .setsockopt => some { s with owner := if ok then .bind else .test }
  | .bind => some { s with owner := if ok then .listen else .test }
  | .listen => some { s with owner := if ok then .epoll else .test }
  | .addSock => some { s with owner := if ok then .eventfd else .test }
  | .addNotify => some { s with owner := if ok then .thread else .test }
  | _ => none

/-- A step of the owner beside the calls of `start`. -/
def ownerNext (s : TCPServer) : Option TCPServer :=
  match s.owner with
  | .thread => some { s with running := true, acceptLoop := .test, owner := .serving }
  | .serving => some { s with owner := .test }
  | .test => some { s with owner := if s.closeAll then .stopped else .setCloseAll }
  | .setCloseAll => some { s with closeAll := true, owner := .clearRunning }
  | .clearRunning => some { s with running := false, owner := .notify }
  | .notify => some { s with notified := s.notified || s.notifyFd.isSome, owner := .join }
  | .join =>
    if s.acceptLoop = .ended then some { s with owner := .shutdown s.clientSockets } else none
  | .shutdown [] => some { s with clientSockets := [], owner := .closeSock }
  | .shutdown (fd :: todo) => some { s with owner := .close fd todo }
  | .close fd todo =>
    some { s with
      table := close s.table (some fd)
      connections := s.connections.erase fd
      owner := .shutdown todo }
  | .closeSock => some { s with table := close s.table s.serverSock, owner := .closeNotify }
  | .closeNotify => some { s with table := close s.table s.notifyFd, owner := .closeEpoll }
  | .closeEpoll => some { s with table := close s.table s.acceptEpollFd, owner := .stopped }
  | _ => none

/-- A step of `accept_loop` beside `epoll_wait` and `accept`. -/
def acceptNext (s : TCPServer) : Option TCPServer :=
  match s.acceptLoop with
  | .test =>
    some { s with acceptLoop := if s.running && !s.stopAll then .waiting else .ended }
  | .batch [] => some { s with acceptLoop := .test }
  | .batch (.sock :: events) => some { s with acceptLoop := .accept events }
  | .batch (.notify :: _) =>
    some { s with notified := false, running := false, acceptLoop := .test }
  | .addFd fd events =>
    -- `workers[next_worker]` and the remainder are undefined without workers
    if s.workers = 0 then none
    else some { s with
      added := s.added ++ [(s.nextWorker, fd)]
      nextWorker := (s.nextWorker + 1) % s.workers
      acceptLoop := .push fd events }
  | .push fd events =>
    some { s with clientSockets := s.clientSockets ++ [fd], acceptLoop := .accept events }
  | .notifyFalse => some { s with running := false, acceptLoop := .ended }
  | .waiting | .accept _ | .ended => none

/-- The connection that is accepted and not given to a worker. -/
def accepted (s : TCPServer) : List ℕ :=
  match s.acceptLoop with
  | .addFd fd _ => [fd]
  | _ => []

def next (s : TCPServer) : TCPServerStep → Option TCPServer
  | .socket fd =>
    if s.owner = .socket then (create s.table fd).map fun table =>
      { s with
        serverSock := fd, table := table, owner := if fd.isSome then .setsockopt else .test }
    else none
  | .epoll fd =>
    if s.owner = .epoll then (create s.table fd).map fun table =>
      { s with
        acceptEpollFd := fd, table := table, owner := if fd.isSome then .addSock else .test }
    else none
  | .eventfd fd =>
    if s.owner = .eventfd then (create s.table fd).map fun table =>
      { s with
        notifyFd := fd, table := table, owner := if fd.isSome then .addNotify else .test }
    else none
  | .call ok => s.callNext ok
  | .owner => s.ownerNext
  | .stopAgain =>
    if s.owner = .stopped then
      some { s with owner := if s.closeAll then .stopped else .setCloseAll }
    else none
  | .acceptLoop => s.acceptNext
  | .wake events =>
    if s.acceptLoop = .waiting ∧ events ≠ [] ∧ events.Nodup ∧
        (.notify ∈ events ↔ s.notified = true) then
      some { s with acceptLoop := .batch events }
    else none
  | .accept fd => match s.acceptLoop with
    | .accept events => (create s.table fd).map fun table =>
      { s with
        table := table
        connections := fd.toList ++ s.connections
        acceptLoop := match fd with
          | some fd => .addFd fd events
          | none => .batch events }
    | _ => none
  | .interrupted => if s.acceptLoop = .waiting then some { s with acceptLoop := .test } else none
  | .epollFails =>
    if s.acceptLoop = .waiting then some { s with acceptLoop := .notifyFalse } else none
  | .workerCloses fd =>
    if fd ∈ s.connections ∧ fd ∉ s.accepted then
      some { s with
        table := close s.table (some fd)
        connections := s.connections.erase fd }
    else none
  | .stopAll => some { s with stopAll := true }
  | .opens fd =>
    if s.table fd = none then some { s with table := Function.update s.table fd (some .other) }
    else none
  | .closes fd =>
    if s.table fd = some .other then some { s with table := Function.update s.table fd none }
    else none

/-- A server of `n` workers before `start`, in a process that has descriptors of its
own. -/
structure IsStart (n : ℕ) (s : TCPServer) : Prop where
  fds : s.serverSock = none ∧ s.acceptEpollFd = none ∧ s.notifyFd = none
  flags : s.running = false ∧ s.closeAll = false ∧ s.notified = false
  data : s.workers = n ∧ s.nextWorker = 0 ∧ s.added = [] ∧ s.clientSockets = [] ∧
    s.connections = []
  table : ∀ fd, s.table fd ≠ some .mine
  pcs : s.owner = .socket ∧ s.acceptLoop = .ended

end TCPServer

/-- The runs of a server with `n` workers. -/
def serverLife (n : ℕ) : TransitionSystem TCPServer TCPServerStep where
  init := TCPServer.IsStart n
  next := TCPServer.next

/-! ### What holds at each place -/

namespace TCPServerPc

/-- `start` has not made the thread yet. -/
def starting : TCPServerPc → Bool
  | socket | setsockopt | bind | listen | epoll | addSock | eventfd | addNotify | thread => true
  | _ => false

/-- `stop` has set `close_all`. -/
def stopping : TCPServerPc → Bool
  | clearRunning | notify | join | shutdown _ | close _ _ | closeSock | closeNotify
  | closeEpoll | stopped => true
  | _ => false

/-- `stop` has joined the thread. -/
def joined : TCPServerPc → Bool
  | shutdown _ | close _ _ | closeSock | closeNotify | closeEpoll | stopped => true
  | _ => false

/-- The descriptors are created in their order. -/
def Holds (s : TCPServer) : TCPServerPc → Prop
  | socket => s.serverSock = none ∧ s.acceptEpollFd = none ∧ s.notifyFd = none
  | setsockopt | bind | listen | epoll =>
    s.serverSock.isSome = true ∧ s.acceptEpollFd = none ∧ s.notifyFd = none
  | addSock | eventfd => s.acceptEpollFd.isSome = true ∧ s.notifyFd = none
  | addNotify | thread => s.notifyFd.isSome = true
  | _ => True

end TCPServerPc

namespace TCPServer

variable {s t : TCPServer} {l : TCPServerStep} {n : ℕ}

/-- The number that `accept_loop` has accepted and not recorded. -/
def pending (s : TCPServer) : List ℕ :=
  match s.acceptLoop with
  | .addFd fd _ | .push fd _ => [fd]
  | _ => []

/-- The numbers that `stop` has still to close. -/
def listed (s : TCPServer) : List ℕ :=
  match s.owner with
  | .shutdown todo => todo
  | .close fd todo => fd :: todo
  | .closeSock | .closeNotify | .closeEpoll | .stopped => []
  | _ => s.clientSockets ++ s.pending

/-- What holds of the members in every state. -/
structure Control (s : TCPServer) : Prop where
  notifyFd : s.notifyFd.isSome = true → s.acceptEpollFd.isSome = true
  acceptEpollFd : s.acceptEpollFd.isSome = true → s.serverSock.isSome = true
  starting : s.owner.starting = true → s.acceptLoop = .ended ∧ s.clientSockets = []
  joined : s.owner.joined = true → s.acceptLoop = .ended
  acceptLoop : s.acceptLoop ≠ .ended → s.notifyFd.isSome = true
  closeAll : s.closeAll = s.owner.stopping
  owner : s.owner.Holds s

/-- Before `start`. -/
theorem control_start (h : IsStart n s) : Control s := by
  obtain ⟨⟨hsock, hepoll, hnotify⟩, ⟨-, hclose, -⟩, ⟨-, -, -, hclients, -⟩, -, howner, haccept⟩ := h
  constructor <;> simp [hsock, hepoll, hnotify, hclose, hclients, howner, haccept,
    TCPServerPc.stopping, TCPServerPc.joined, TCPServerPc.Holds]

/-- A step of `accept_loop` keeps what the owner relies on. -/
theorem Control.of_acceptLoop (h : Control s) (haccept : s.acceptLoop ≠ .ended)
    (hsock : t.serverSock = s.serverSock) (hepoll : t.acceptEpollFd = s.acceptEpollFd)
    (hnotify : t.notifyFd = s.notifyFd) (hclose : t.closeAll = s.closeAll)
    (howner : t.owner = s.owner) : Control t := by
  have hsome := h.acceptLoop haccept
  have hstarting : s.owner.starting = false :=
    Bool.eq_false_iff.2 fun hs => haccept (h.starting hs).1
  have hjoined : s.owner.joined = false :=
    Bool.eq_false_iff.2 fun hs => haccept (h.joined hs)
  refine ⟨?_, ?_, ?_, ?_, ?_, ?_, ?_⟩
  · rw [hnotify, hepoll]; exact h.notifyFd
  · rw [hepoll, hsock]; exact h.acceptEpollFd
  · rw [howner]; exact fun hs => absurd hs (by simp [hstarting])
  · rw [howner]; exact fun hs => absurd hs (by simp [hjoined])
  · rw [hnotify]; exact fun _ => hsome
  · rw [hclose, howner]; exact h.closeAll
  · rw [howner]
    cases hs : s.owner <;> first | trivial | simp [hs, TCPServerPc.starting] at hstarting

/-- The owner keeps the members in order. -/
theorem control_ownerNext (h : Control s) (hn : s.ownerNext = some t) : Control t := by
  have hstarting := h.starting
  have hjoined := h.joined
  have hclose := h.closeAll
  have hholds := h.owner
  cases hs : s.owner <;> simp only [ownerNext, hs, TCPServerPc.Holds, Option.some.injEq,
    reduceCtorEq, Option.ite_none_right_eq_some] at hn hholds
  case thread =>
    subst hn
    refine ⟨h.notifyFd, h.acceptEpollFd, ?_, ?_, fun _ => hholds, ?_, trivial⟩ <;>
      simp [TCPServerPc.starting, TCPServerPc.joined, TCPServerPc.stopping, hclose, hs]
  case join =>
    obtain ⟨hended, rfl⟩ := hn
    refine ⟨h.notifyFd, h.acceptEpollFd, ?_, fun _ => hended, h.acceptLoop, ?_, trivial⟩ <;>
      simp [TCPServerPc.starting, TCPServerPc.stopping, hclose, hs]
  case shutdown todo =>
    have hended := hjoined (by rw [hs]; rfl)
    cases todo <;> obtain rfl := Option.some.inj hn <;>
      refine ⟨h.notifyFd, h.acceptEpollFd, ?_, fun _ => hended, h.acceptLoop, ?_, trivial⟩ <;>
        simp [TCPServerPc.starting, TCPServerPc.stopping, hclose, hs]
  all_goals
    subst hn
    refine ⟨h.notifyFd, h.acceptEpollFd, ?_, ?_, h.acceptLoop, ?_, ?_⟩ <;>
      grind -ring -linarith [TCPServerPc.starting, TCPServerPc.joined, TCPServerPc.stopping,
        TCPServerPc.Holds]

/-- So does a call of `start` that creates nothing. -/
theorem control_callNext (h : Control s) {ok : Bool} (hn : s.callNext ok = some t) :
    Control t := by
  have hstarting := h.starting
  have hclose := h.closeAll
  have hholds := h.owner
  have hsock := h.acceptEpollFd
  cases hs : s.owner <;> simp only [callNext, hs, TCPServerPc.Holds, Option.some.injEq,
    reduceCtorEq] at hn hholds <;> subst hn <;>
    refine ⟨h.notifyFd, h.acceptEpollFd, ?_, ?_, h.acceptLoop, ?_, ?_⟩ <;> cases ok <;>
      grind -ring -linarith [TCPServerPc.starting, TCPServerPc.joined, TCPServerPc.stopping,
        TCPServerPc.Holds]

/-- `accept_loop` touches no member. -/
theorem control_acceptNext (h : Control s) (hn : s.acceptNext = some t) : Control t := by
  unfold acceptNext at hn
  split at hn <;> rename_i haccept
  case h_5 fd events =>
    obtain ⟨-, hn⟩ := Option.ite_none_left_eq_some.1 hn
    cases hn
    exact h.of_acceptLoop (by simp [haccept]) rfl rfl rfl rfl rfl
  all_goals
    cases hn <;> exact h.of_acceptLoop (by simp [haccept]) rfl rfl rfl rfl rfl

/-- **Every step keeps the members in order.** -/
theorem control_next (h : Control s) (hn : s.next l = some t) : Control t := by
  have hstarting := h.starting
  have hclose := h.closeAll
  have hholds := h.owner
  cases l with
  | owner => exact control_ownerNext h hn
  | call ok => exact control_callNext h hn
  | acceptLoop => exact control_acceptNext h hn
  | socket fd | epoll fd | eventfd fd =>
    simp only [next, Option.ite_none_right_eq_some, Option.map_eq_some_iff] at hn
    obtain ⟨hs, table, -, rfl⟩ := hn
    obtain ⟨h1, h2, h3, h4, h5, h6, h7⟩ := h
    simp only [hs, TCPServerPc.Holds] at hholds
    constructor <;> cases fd <;>
      simp_all [TCPServerPc.starting, TCPServerPc.joined, TCPServerPc.stopping, TCPServerPc.Holds]
  | stopAgain =>
    simp only [next, Option.ite_none_right_eq_some, Option.some.injEq] at hn
    obtain ⟨hs, rfl⟩ := hn
    have hstopping : s.closeAll = true := by rw [hclose, hs]; rfl
    rw [if_pos hstopping, ← hs]
    exact h
  | wake events =>
    simp only [next, Option.ite_none_right_eq_some, Option.some.injEq] at hn
    obtain ⟨⟨haccept, -⟩, rfl⟩ := hn
    exact h.of_acceptLoop (by simp [haccept]) rfl rfl rfl rfl rfl
  | accept fd =>
    simp only [next] at hn
    split at hn
    · rename_i events haccept
      obtain ⟨table, -, rfl⟩ := Option.map_eq_some_iff.1 hn
      exact h.of_acceptLoop (by simp [haccept]) rfl rfl rfl rfl rfl
    · cases hn
  | interrupted | epollFails =>
    simp only [next, Option.ite_none_right_eq_some, Option.some.injEq] at hn
    obtain ⟨haccept, rfl⟩ := hn
    exact h.of_acceptLoop (by simp [haccept]) rfl rfl rfl rfl rfl
  | workerCloses fd | opens fd | closes fd =>
    simp only [next, Option.ite_none_right_eq_some, Option.some.injEq] at hn
    obtain ⟨-, rfl⟩ := hn
    refine ⟨h.notifyFd, h.acceptEpollFd, hstarting, h.joined, h.acceptLoop, hclose, ?_⟩
    cases hs : s.owner <;> simp_all [TCPServerPc.Holds]
  | stopAll =>
    obtain rfl := Option.some.inj hn
    refine ⟨h.notifyFd, h.acceptEpollFd, hstarting, h.joined, h.acceptLoop, hclose, ?_⟩
    cases hs : s.owner <;> simp_all [TCPServerPc.Holds]

/-- The members are in order in every state. -/
theorem control_of_reachable (hs : (serverLife n).Reachable anyStep s) : Control s := by
  induction hs with
  | init hinit => exact control_start hinit
  | step _ _ hn h => exact control_next h hn

end TCPServer

end Server
end WeakAyas
