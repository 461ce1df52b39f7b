/-
# The life of the client

`ClientTCP::start`, `stop`, `send_msg` and the control of `recv_loop`
(`TCPClient.cpp`, lines 20-92, 123-126 and 133-183), with `ConsoleClient::run`
between them as `main` calls it (`final_main.cpp`, lines 252-263): the result of
`start` is ignored, and `run` looks at `client_get_server_stats` before each command.

| `main` | `recv_loop` |
| --- | --- |
| `socket`, `connect`, `epoll_create1`, `eventfd`, thread | |
| `ConsoleClient::run` | `epoll_wait`, `read` |
| `g_stop_client_flag`, `running = false`, `write(notify_fd)` | `read(notify_fd)` |
| `join`, `close` three times | |

A descriptor is a number of the table of the process, and other threads of the
process open and close descriptors all the time, so a number that the client has
closed can be another's.

Nothing in the repository handles `SIGPIPE`, and `send` is called without
`MSG_NOSIGNAL`: on a connection that the server has reset it kills the process, as a
`write` of another thread does.

The console needs the lines of a command at hand.  `final_main` reads them from a string
that it puts behind `std::cin`, where they are, while at a terminal `getline` waits for
them: what comes is `typed`.
-/

import WeakAyas.Client.Console
import WeakAyas.Client.RecvLoop
import WeakAyas.Library.Handles
import WeakAyas.Library.TransitionSystem

namespace WeakAyas
namespace Client

open TransitionSystem Handles

/-! ### One command -/

/-- One pass of the loop of `ConsoleClient::run` behind its check of the server: the
message that it sends and the lines that it leaves, `none` for `break`. -/
def turn : List Bytes → Option (Option Bytes × List Bytes)
  | [] => none
  | cmd :: lines =>
    if cmd.isEmpty then some (none, lines)
    else if cmd == text "exit" then none
    else if cmd == text "help" then some (none, lines)
    else match Command.all.find? (·.name == cmd) with
      | none => some (none, lines)
      | some c => match (ask c.prompts lines).1 with
        | .success answers =>
          some (some (buildPackage c.type.toByte (payload answers)), (ask c.prompts lines).2)
        | .back => some (none, (ask c.prompts lines).2)
        | .exit => none

/-- `run` is its passes. -/
theorem run_eq (lines : List Bytes) :
    run lines = match turn lines with
      | none => []
      | some (msg, rest) => msg.toList ++ run rest := by
  cases lines with
  | nil =>
    rw [run]
    rfl
  | cons cmd lines =>
    rw [run, turn]
    split_ifs with hempty hexit hhelp
    · rfl
    · rfl
    · rfl
    · generalize Command.all.find? (·.name == cmd) = found
      rcases found with _ | c
      · rfl
      · simp only
        generalize (ask c.prompts lines).1 = result
        rcases result with answers | _ | _ <;> rfl

/-- Where the console ends, no more messages come. -/
theorem run_of_turn_eq_none {lines : List Bytes} (h : turn lines = none) : run lines = [] := by
  rw [run_eq, h]

/-- A turn takes the first message, if it completes a command. -/
theorem run_of_turn {lines rest : List Bytes} {msg : Option Bytes}
    (h : turn lines = some (msg, rest)) : run lines = msg.toList ++ run rest := by
  rw [run_eq, h]

/-- A turn reads at least one line. -/
theorem length_of_turn {lines rest : List Bytes} {msg : Option Bytes}
    (h : turn lines = some (msg, rest)) : rest.length < lines.length := by
  cases lines with
  | nil => cases h
  | cons cmd lines =>
    rw [turn] at h
    split_ifs at h with hempty hexit hhelp
    · cases h
      exact Nat.lt_succ_self _
    · cases h
      exact Nat.lt_succ_self _
    · split at h
      · cases h
        exact Nat.lt_succ_self _
      · rename_i c _
        have hle := length_ask_le c.prompts lines
        split at h <;> cases h <;> exact Nat.lt_succ_of_le hle

/-! ### The threads -/

/-- The next action of `main`: `start` to `thread`, `ConsoleClient::run` in `check` and
`command`, and from `setStopAll` on the end, `stop` from `test` on; or `SIGPIPE` has
killed the process. -/
inductive OwnerPc where
  | socket
  | connect
  | closeFailed
  | epoll
  | eventfd
  | thread
  | check
  | command
  | setStopAll
  | test
  | setCloseAll
  | clearRunning
  | notify
  | join
  | closeSock
  | closeNotify
  | closeEpoll
  | stopped
  | killed
  deriving DecidableEq, Repr

/-- What `epoll_wait` reports. -/
inductive Event where
  | sock
  | notify
  deriving DecidableEq, Repr

/-- The next action of `recv_loop`: the test of its loop, `epoll_wait`, or the events
that are left of one call.  It has `ended` also before it is there, and with the
process. -/
inductive RecvPc where
  | test
  | waiting
  | batch (events : List Event)
  | ended
  deriving DecidableEq, Repr

/-- The members of `ClientTCP`, `none` for a descriptor that is -1, with the flag
`g_stop_client_flag`, the lines of the standard input, the messages sent, the results
of `read` and what is printed of them, and the descriptors of the process. -/
structure ClientTCP where
  sock : Option ℕ
  epollFd : Option ℕ
  notifyFd : Option ℕ
  running : Bool
  stopAll : Bool
  serverOn : Bool
  closeAll : Bool
  notified : Bool
  lines : List Bytes
  sent : List Bytes
  reads : List ReadResult
  printed : List Bytes
  table : Table
  owner : OwnerPc
  recv : RecvPc

/-- The steps: of `main`, of `recv_loop` with what the calls return, and of the other
threads of the process.  `typed` is a command of the console with its prompts, `sigpipe`
the end in `send` or in a write of another thread, and `stopAgain` another call of
`stop`, as of the destructor. -/
inductive ClientStep where
  | socket (fd : Option ℕ)
  | connect (ok : Bool)
  | epoll (fd : Option ℕ)
  | eventfd (fd : Option ℕ)
  | owner
  | typed
  | sigpipe (own : Bool)
  | stopAgain
  | recv
  | wake (events : List Event)
  | read (r : ReadResult)
  | interrupted
  | epollFails
  | opens (fd : ℕ)
  | closes (fd : ℕ)
  deriving DecidableEq, Repr

/-- The step comes from outside of the client: the socket becomes readable, `epoll_wait`
returns without an event, the peer has reset the connection, or it is another thread's. -/
def ClientStep.external : ClientStep → Bool
  | wake events => events.contains .sock
  | sigpipe _ | stopAgain | interrupted | epollFails | opens _ | closes _ => true
  | _ => false

namespace ClientTCP

/-- A step of `main` beside the calls of `start`. -/
def ownerNext (s : ClientTCP) : Option ClientTCP :=
  match s.owner with
  | .closeFailed => some { s with table := close s.table s.sock, owner := .check }
  | .thread => some { s with running := true, recv := .test, owner := .check }
  | .check => some { s with owner := if s.serverOn then .command else .setStopAll }
  | .command =>
    -- at the end of the input `getline` fails
    if s.lines = [] then some { s with owner := .setStopAll } else none
  | .setStopAll => some { s with stopAll := true, owner := .test }
  | .test => some { s with owner := if s.closeAll then .stopped else .setCloseAll }
  | .setCloseAll => some { s with closeAll := true, owner := .clearRunning }
  | .clearRunning => some { s with running := false, owner := .notify }
  | .notify => some { s with notified := s.notified || s.notifyFd.isSome, owner := .join }
  | .join => if s.recv = .ended then some { s with owner := .closeSock } else none
  | .closeSock => some { s with table := close s.table s.sock, owner := .closeNotify }
  | .closeNotify => some { s with table := close s.table s.notifyFd, owner := .closeEpoll }
  | .closeEpoll => some { s with table := close s.table s.epollFd, owner := .stopped }
  | .socket | .connect | .epoll | .eventfd | .stopped | .killed => none

/-- The command that `ConsoleClient::run` has read: `break`, or `send_msg`. -/
def typedNext (s : ClientTCP) : Option ClientTCP :=
  if s.owner = .command ∧ s.lines ≠ [] then
    match turn s.lines with
    | none => some { s with owner := .setStopAll }
    | some (msg, rest) =>
      some { s with
        sent := s.sent ++ (if s.sock.isSome then msg.toList else [])
        lines := rest
        owner := .check }
  else none

/-- `main` calls `send` for the command that it reads. -/
def sends (s : ClientTCP) : Bool :=
  s.owner = .command && s.sock.isSome && (turn s.lines).any (·.1.isSome)

/-- A step of `recv_loop` beside `epoll_wait` and `read`. -/
def recvNext (s : ClientTCP) : Option ClientTCP :=
  match s.recv with
  | .test => some { s with recv := if s.running && !s.stopAll then .waiting else .ended }
  | .batch [] => some { s with recv := .test }
  | .batch (.notify :: events) => some { s with notified := false, recv := .batch events }
  | .batch (.sock :: _) | .waiting | .ended => none

/-- `recv_loop` with the result of `read(sock)`. -/
def readNext (s : ClientTCP) (r : ReadResult) : Option ClientTCP :=
  match s.recv with
  | .batch (.sock :: events) =>
    let s := { s with reads := s.reads ++ [r], recv := .batch events }
    match r with
    | .data msg => match received msg with
      | .ok shown => some { s with printed := s.printed ++ shown.toList }
      | .error _ => none  -- a read outside of `msg`
    | .retry => some s
    | .eof => some { s with serverOn := false, running := false }
    | .error => some { s with running := false }
  | _ => none

def next (s : ClientTCP) : ClientStep → Option ClientTCP
  | .socket fd =>
    if s.owner = .socket then (create s.table fd).map fun table =>
      { s with sock := fd, table := table, owner := if fd.isSome then .connect else .check }
    else none
  | .connect ok =>
    if s.owner = .connect then
      some (if ok then { s with serverOn := true, owner := .epoll }
        else { s with owner := .closeFailed })
    else none
  | .epoll fd =>
    if s.owner = .epoll then (create s.table fd).map fun table =>
      { s with epollFd := fd, table := table, owner := if fd.isSome then .eventfd else .check }
    else none
  | .eventfd fd =>
    if s.owner = .eventfd then (create s.table fd).map fun table =>
      { s with notifyFd := fd, table := table, owner := if fd.isSome then .thread else .check }
    else none
  | .owner => s.ownerNext
  | .typed => s.typedNext
  | .sigpipe own =>
    if s.owner ≠ .killed ∧ (own = true → s.sends = true) then
      some { s with owner := .killed, recv := .ended }
    else none
  | .stopAgain =>
    if s.owner = .stopped then
      some { s with owner := if s.closeAll then .stopped else .setCloseAll }
    else none
  | .recv => s.recvNext
  | .wake events =>
    if s.recv = .waiting ∧ events ≠ [] ∧ events.Nodup ∧ (.notify ∈ events ↔ s.notified = true) then
      some { s with recv := .batch events }
    else none
  | .read r => s.readNext r
  | .interrupted => if s.recv = .waiting then some { s with recv := .test } else none
  | .epollFails => if s.recv = .waiting then some { s with recv := .ended } else none
  | .opens fd =>
    if s.owner ≠ .killed ∧ s.table fd = none then
      some { s with table := Function.update s.table fd (some .other) }
    else none
  | .closes fd =>
    if s.owner ≠ .killed ∧ s.table fd = some .other then
      some { s with table := Function.update s.table fd none }
    else none

/-- A client before `start`, in a process that has descriptors of its own. -/
structure IsStart (lines : List Bytes) (s : ClientTCP) : Prop where
  fds : s.sock = none ∧ s.epollFd = none ∧ s.notifyFd = none
  flags : s.running = false ∧ s.serverOn = false ∧ s.closeAll = false ∧ s.notified = false
  data : s.lines = lines ∧ s.sent = [] ∧ s.reads = [] ∧ s.printed = []
  table : ∀ fd, s.table fd ≠ some .mine
  pcs : s.owner = .socket ∧ s.recv = .ended

end ClientTCP

/-- The runs of a client with these lines at its console. -/
def clientLife (lines : List Bytes) : TransitionSystem ClientTCP ClientStep where
  init := ClientTCP.IsStart lines
  next := ClientTCP.next

/-! ### What holds at each place -/

/-- `stop` has set `close_all`. -/
def OwnerPc.stopping : OwnerPc → Bool
  | clearRunning | notify | join | closeSock | closeNotify | closeEpoll | stopped => true
  | _ => false

/-- `stop` has written to `notify_fd`. -/
def OwnerPc.told : OwnerPc → Bool
  | join | closeSock | closeNotify | closeEpoll | stopped | killed => true
  | _ => false

/-- What holds of the members at each place of `main`: the descriptors are created in
their order and the thread last, and `stop` waits for a thread that has been told and
finds that it is not `running`. -/
def OwnerPc.Holds (s : ClientTCP) : OwnerPc → Prop
  | socket =>
    s.sock = none ∧ s.epollFd = none ∧ s.notifyFd = none ∧ s.serverOn = false ∧ s.recv = .ended
  | connect | closeFailed =>
    s.sock.isSome = true ∧ s.epollFd = none ∧ s.notifyFd = none ∧ s.serverOn = false ∧
      s.recv = .ended
  | epoll =>
    s.sock.isSome = true ∧ s.epollFd = none ∧ s.notifyFd = none ∧ s.serverOn = true ∧
      s.recv = .ended
  | eventfd => s.epollFd.isSome = true ∧ s.notifyFd = none ∧ s.serverOn = true ∧ s.recv = .ended
  | thread => s.notifyFd.isSome = true ∧ s.serverOn = true ∧ s.recv = .ended
  | check | setStopAll | test | setCloseAll | clearRunning => True
  | command => s.serverOn = true ∨ s.epollFd.isSome = true
  | notify => s.running = false
  | join => s.running = false ∧ (s.recv = .waiting → s.notified = true)
  | closeSock | closeNotify | closeEpoll | stopped => s.running = false ∧ s.recv = .ended
  | killed => s.recv = .ended

namespace ClientTCP

variable {s t : ClientTCP} {l : ClientStep} {lines : List Bytes}

/-- What holds of the members in every state. -/
structure Control (s : ClientTCP) : Prop where
  notifyFd : s.notifyFd.isSome = true → s.epollFd.isSome = true
  epollFd : s.epollFd.isSome = true → s.sock.isSome = true
  serverOn : s.serverOn = true → s.sock.isSome = true
  recv : s.recv ≠ .ended → s.notifyFd.isSome = true
  closeAll : s.owner ≠ .killed → s.closeAll = s.owner.stopping
  notified : s.notified = true → s.owner.told = true
  owner : s.owner.Holds s

/-- Before `start`. -/
theorem control_start (h : IsStart lines s) : Control s := by
  obtain ⟨⟨hsock, hepoll, hnotify⟩, ⟨-, hserver, hclose, hnotified⟩, -, -, howner, hrecv⟩ := h
  constructor <;> simp [hsock, hepoll, hnotify, hserver, hclose, hnotified, howner, hrecv,
    OwnerPc.stopping, OwnerPc.Holds]

/-- The owner keeps the members in order. -/
theorem control_ownerNext (h : Control s) (hn : s.ownerNext = some t) : Control t := by
  have hrecv := h.recv
  have hclose := h.closeAll
  have htold := h.notified
  have hholds := h.owner
  cases hs : s.owner <;> simp only [ownerNext, hs, OwnerPc.Holds, Option.some.injEq,
    reduceCtorEq, Option.ite_none_right_eq_some] at hn hholds
  case command =>
    obtain ⟨-, rfl⟩ := hn
    refine ⟨h.notifyFd, h.epollFd, h.serverOn, hrecv, ?_, ?_, ?_⟩ <;>
      grind -ring -linarith [OwnerPc.Holds, OwnerPc.stopping, OwnerPc.told]
  case join =>
    obtain ⟨hended, rfl⟩ := hn
    refine ⟨h.notifyFd, h.epollFd, h.serverOn, hrecv, ?_, ?_, ?_⟩ <;>
      grind -ring -linarith [OwnerPc.Holds, OwnerPc.stopping, OwnerPc.told]
  all_goals
    subst hn
    refine ⟨h.notifyFd, h.epollFd, h.serverOn, ?_, ?_, ?_, ?_⟩ <;>
      grind -ring -linarith [OwnerPc.Holds, OwnerPc.stopping, OwnerPc.told]

/-- What a command does. -/
theorem typedNext_cases (hn : s.typedNext = some t) : s.owner = .command ∧ s.lines ≠ [] ∧
    (turn s.lines = none ∧ t = { s with owner := .setStopAll } ∨
      ∃ msg rest, turn s.lines = some (msg, rest) ∧ t = { s with
        sent := s.sent ++ (if s.sock.isSome then msg.toList else [])
        lines := rest
        owner := .check }) := by
  rw [typedNext, Option.ite_none_right_eq_some] at hn
  obtain ⟨⟨howner, hlines⟩, hn⟩ := hn
  refine ⟨howner, hlines, ?_⟩
  split at hn <;> cases hn
  · rename_i hturn
    exact .inl ⟨hturn, rfl⟩
  · rename_i msg rest hturn
    exact .inr ⟨msg, rest, hturn, rfl⟩

/-- `main` goes from the console on. -/
theorem Control.of_command (h : Control s) (hs : s.owner = .command) (lines sent : List Bytes)
    {pc : OwnerPc} (hpc : pc = .setStopAll ∨ pc = .check) :
    Control { s with lines := lines, sent := sent, owner := pc } := by
  have hclose : s.closeAll = false := by rw [h.closeAll (by simp [hs]), hs]; rfl
  have hnotified : s.notified = false := by
    by_contra hnotified
    have htold := h.notified (by simpa using hnotified)
    simp [hs, OwnerPc.told] at htold
  rcases hpc with rfl | rfl <;>
    exact ⟨h.notifyFd, h.epollFd, h.serverOn, h.recv, fun _ => hclose, by simp [hnotified],
      trivial⟩

/-- A turn of the console touches none of them. -/
theorem control_typedNext (h : Control s) (hn : s.typedNext = some t) : Control t := by
  obtain ⟨hs, -, ⟨-, rfl⟩ | ⟨msg, rest, -, rfl⟩⟩ := typedNext_cases hn
  · exact h.of_command hs s.lines s.sent (.inl rfl)
  · exact h.of_command hs rest _ (.inr rfl)

/-- A step of `recv_loop` keeps what `main` relies on. -/
theorem Control.of_recv (h : Control s) (hrecv : s.recv ≠ .ended) (hsock : t.sock = s.sock)
    (hepoll : t.epollFd = s.epollFd) (hnotify : t.notifyFd = s.notifyFd)
    (hclose : t.closeAll = s.closeAll) (howner : t.owner = s.owner)
    (hrunning : s.running = false → t.running = false)
    (hserver : t.serverOn = true → s.serverOn = true)
    (hnotified : t.notified = true → s.notified = true)
    (hwaiting : s.running = false → t.recv = .waiting → t.notified = true) : Control t := by
  have hholds := h.owner
  refine ⟨?_, ?_, ?_, ?_, ?_, ?_, ?_⟩
  · rw [hnotify, hepoll]; exact h.notifyFd
  · rw [hepoll, hsock]; exact h.epollFd
  · rw [hsock]; exact fun ht => h.serverOn (hserver ht)
  · rw [hnotify]; exact fun _ => h.recv hrecv
  · rw [hclose, howner]; exact h.closeAll
  · rw [howner]; exact fun ht => h.notified (hnotified ht)
  · rw [howner]
    have hfd := h.recv hrecv
    have hepollFd := h.notifyFd hfd
    cases hs : s.owner <;> simp_all [OwnerPc.Holds]

/-- `recv_loop` keeps the members in order. -/
theorem control_recvNext (h : Control s) (hn : s.recvNext = some t) : Control t := by
  unfold recvNext at hn
  split at hn <;> cases hn <;> rename_i hrecv <;>
    refine h.of_recv (by simp [hrecv]) rfl rfl rfl rfl rfl id id ?_ ?_ <;> simp_all

/-- What a `read` does: the loop prints what it prints for one result, and goes on to
the next event. -/
theorem readNext_eq {r : ReadResult} (hn : s.readNext r = some t) :
    ∃ events shown, s.recv = .batch (.sock :: events) ∧ recvLoop [r] = .ok shown ∧
      t = { s with
        reads := s.reads ++ [r]
        printed := s.printed ++ shown
        serverOn := s.serverOn && r != .eof
        running := s.running && r != .eof && r != .error
        recv := .batch events } := by
  have htrue : ∀ b : Bool, (b && true) = b := Bool.and_true
  unfold readNext at hn
  split at hn
  · rename_i events hrecv
    cases r with
    | data msg =>
      simp only at hn
      split at hn <;> cases hn
      rename_i shown hshown
      have hloop : recvLoop [.data msg] = .ok shown.toList := by
        simp [recvLoop, hshown, bind, Except.bind, pure, Except.pure]
      refine ⟨events, shown.toList, hrecv, hloop, ?_⟩
      rw [show (ReadResult.data msg != .eof) = true from rfl,
        show (ReadResult.data msg != .error) = true from rfl, htrue, htrue, htrue]
    | retry =>
      cases hn
      refine ⟨events, [], hrecv, rfl, ?_⟩
      rw [show (ReadResult.retry != .eof) = true from rfl,
        show (ReadResult.retry != .error) = true from rfl, htrue, htrue, htrue, List.append_nil]
    | eof | error =>
      cases hn
      exact ⟨events, [], hrecv, rfl, by simp⟩
  · cases hn

/-- So does what follows a `read`. -/
theorem control_readNext (h : Control s) {r : ReadResult} (hn : s.readNext r = some t) :
    Control t := by
  obtain ⟨events, shown, hrecv, -, rfl⟩ := readNext_eq hn
  exact h.of_recv (by simp [hrecv]) rfl rfl rfl rfl rfl (fun hrunning => by simp [hrunning])
    (fun hserver => (Bool.and_eq_true_iff.1 hserver).1) id (by simp)

/-- **Every step keeps the members in order.** -/
theorem control_next (h : Control s) (hn : s.next l = some t) : Control t := by
  have hholds := h.owner
  cases l with
  | owner => exact control_ownerNext h hn
  | typed => exact control_typedNext h hn
  | recv => exact control_recvNext h hn
  | read r => exact control_readNext h hn
  | sigpipe own =>
    simp only [next, Option.ite_none_right_eq_some, Option.some.injEq] at hn
    obtain ⟨-, rfl⟩ := hn
    exact ⟨h.notifyFd, h.epollFd, h.serverOn, fun hne => absurd rfl hne,
      fun hne => absurd rfl hne, fun _ => rfl, rfl⟩
  | socket fd | epoll fd | eventfd fd =>
    simp only [next, Option.ite_none_right_eq_some, Option.map_eq_some_iff] at hn
    obtain ⟨hs, table, -, rfl⟩ := hn
    simp only [hs, OwnerPc.Holds] at hholds
    obtain ⟨h1, h2, h3, h4, h5, h6, -⟩ := h
    constructor <;> cases fd <;> simp_all [OwnerPc.Holds, OwnerPc.stopping, OwnerPc.told]
  | connect ok =>
    simp only [next, Option.ite_none_right_eq_some, Option.some.injEq] at hn
    obtain ⟨hs, rfl⟩ := hn
    simp only [hs, OwnerPc.Holds] at hholds
    obtain ⟨h1, h2, h3, h4, h5, h6, -⟩ := h
    constructor <;> cases ok <;> simp_all [OwnerPc.Holds, OwnerPc.stopping, OwnerPc.told]
  | stopAgain =>
    simp only [next, Option.ite_none_right_eq_some, Option.some.injEq] at hn
    obtain ⟨hs, rfl⟩ := hn
    have hclose : s.closeAll = true := by rw [h.closeAll (by simp [hs]), hs]; rfl
    rw [if_pos hclose, ← hs]
    exact h
  | wake events =>
    simp only [next, Option.ite_none_right_eq_some, Option.some.injEq] at hn
    obtain ⟨⟨hrecv, -⟩, rfl⟩ := hn
    exact h.of_recv (by simp [hrecv]) rfl rfl rfl rfl rfl id id id (by simp)
  | interrupted | epollFails =>
    simp only [next, Option.ite_none_right_eq_some, Option.some.injEq] at hn
    obtain ⟨hrecv, rfl⟩ := hn
    exact h.of_recv (by simp [hrecv]) rfl rfl rfl rfl rfl id id id (by simp)
  | opens fd | closes fd =>
    simp only [next, Option.ite_none_right_eq_some, Option.some.injEq] at hn
    obtain ⟨-, rfl⟩ := hn
    refine ⟨h.notifyFd, h.epollFd, h.serverOn, h.recv, h.closeAll, h.notified, ?_⟩
    cases hs : s.owner <;> simp_all [OwnerPc.Holds]

/-- A process that was killed does nothing. -/
theorem Control.owner_ne_killed (h : Control s) (hn : s.next l = some t) :
    s.owner ≠ .killed := by
  intro hs
  have hended : s.recv = .ended := by
    have hholds := h.owner
    rwa [hs] at hholds
  cases l <;> simp [next, ownerNext, typedNext, recvNext, readNext, hs, hended] at hn

/-- The members are in order in every state. -/
theorem control_of_reachable (hs : (clientLife lines).Reachable anyStep s) : Control s := by
  induction hs with
  | init hinit => exact control_start hinit
  | step _ _ hn h => exact control_next h hn

end ClientTCP

end Client
end WeakAyas
