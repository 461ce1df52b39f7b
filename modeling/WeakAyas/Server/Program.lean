/-
# The program around the server

`main`, `Server_loop` and `signal_handler` (`final_main.cpp`, lines 36-96 and
252-275), with `start`, `stop`, `accept_loop` and `notify_false` of `TCPServer`
(`TCPServer.cpp`, lines 31-147 and 179-232), as `CMakeLists.txt` builds them: with
`AUTO_SINGLE_CONNECT`.

`stop` ends with `workers.clear()`, which runs `~EpollWorker` of every worker.  That one
can hang, so whether they all return is left open in the step.  A server that has not
started has no connections, and its workers end.

| thread | waits for |
| --- | --- |
| `main` | `server_running`, on `cv`; at its end for `Server_loop` |
| `Server_loop` | `!running` or `g_stop_flag`, on `cv`; at its end `accept_loop`, the workers |
| `accept_loop` | a connection or `notify_fd` |

`notify_false` and the failure path of `Server_loop` notify with `mtx` held.
`signal_handler` and the end of `main` set `g_stop_flag` and notify without it.

Every access to what the threads share is a step of its own.  `mtx` is held by the
thread that is inside.  A handler runs on any thread, any number of them at a time.

The states are those of a program that lives: `SIGPIPE`, at a write to a connection that
is gone, ends all of it at once.
-/

import Mathlib.Data.Nat.Notation
import Mathlib.Tactic.SplitIfs
import Mathlib.Tactic.Tauto
import WeakAyas.Library.TransitionSystem

namespace WeakAyas
namespace Server

open TransitionSystem

/-! ### The threads -/

/-- `Server_loop`: the test of the loop, `server.start()`, the failure path, the wait
on `cv` with its predicate (`check`), the decision between leaving and restarting
(`again`), and the destructor of the server: the join of its accept thread,
`workers.clear()`, and that hanging. -/
inductive ServerPc where
  | test
  | start
  | failLock
  | failClear
  | failNotify
  | failUnlock
  | setRunning
  | lock
  | notify
  | check
  | sleep
  | asleep
  | relock
  | unlock
  | again
  | stop (leave : Bool)
  | join (leave : Bool)
  | clear (leave : Bool)
  | hung
  | ended
  deriving DecidableEq, Repr

/-- `main`: the wait on `cv` with its predicate, the client at the console, and the
end. -/
inductive MainPc where
  | lock
  | check
  | sleep
  | asleep
  | relock
  | unlock
  | console
  | setStop
  | notifyAll
  | join
  | ended
  deriving DecidableEq, Repr

/-- The accept thread of the server: the test of its loop, `epoll_wait`, and
`notify_false`. -/
inductive AcceptPc where
  | test
  | waiting
  | lock
  | clear
  | notify
  | unlock
  | ended
  deriving DecidableEq, Repr

/-- The thread holds `mtx`. -/
def ServerPc.inside : ServerPc → Bool
  | failClear | failNotify | failUnlock | notify | check | sleep | unlock => true
  | _ => false

def MainPc.inside : MainPc → Bool
  | check | sleep | unlock => true
  | _ => false

def AcceptPc.inside : AcceptPc → Bool
  | clear | notify | unlock => true
  | _ => false

/-- The threads and what they share: `g_stop_flag`, `server_running`, `running` and
`notify_fd` of the server, and the handlers that have yet to notify. -/
structure Program where
  stopFlag : Bool
  serverRunning : Bool
  running : Bool
  notified : Bool
  handlers : ℕ
  server : ServerPc
  main : MainPc
  accept : AcceptPc
  deriving DecidableEq, Repr

/-- Who can sleep on `cv`. -/
inductive Sleeper where
  | server
  | main
  deriving DecidableEq, Repr

/-- The steps: of a thread, with the one that a `notify_one` wakes, what `start`
returns, and whether `workers.clear()` does; and what comes from outside: a signal, a
connection or an interrupted call (`EINTR`) in `epoll_wait`, an error of it, and a
spurious wakeup. -/
inductive ProgramStep where
  | server
  | started (ok : Bool)
  | serverNotify (w : Option Sleeper)
  | cleared (ok : Bool)
  | main
  | accept
  | acceptNotify (w : Option Sleeper)
  | handlerNotify (w : Option Sleeper)
  | signal
  | accepted
  | epollFails
  | spurious (w : Sleeper)
  deriving DecidableEq, Repr

/-- The step comes from outside of the program. -/
def ProgramStep.external : ProgramStep → Bool
  | signal | accepted | epollFails | spurious _ => true
  | _ => false

namespace Program

/-- `mtx` is free. -/
def free (s : Program) : Bool := !s.server.inside && !s.main.inside && !s.accept.inside

/-- The sleeper wakes and has to lock `mtx` again. -/
def wake (s : Program) : Sleeper → Option Program
  | .server => if s.server = .asleep then some { s with server := .relock } else none
  | .main => if s.main = .asleep then some { s with main := .relock } else none

/-- `cv.notify_one()`: one sleeper of any choice, nobody only where nobody sleeps. -/
def wakeOne (s : Program) : Option Sleeper → Option Program
  | some w => s.wake w
  | none => if s.server ≠ .asleep ∧ s.main ≠ .asleep then some s else none

/-- `cv.notify_all()`. -/
def wakeAll (s : Program) : Program :=
  { s with
    server := if s.server = .asleep then .relock else s.server
    main := if s.main = .asleep then .relock else s.main }

/-- A step of `Server_loop` beside `start`, `notify_one` and `workers.clear()`. -/
def serverNext (s : Program) : Option Program :=
  match s.server with
  | .test => some { s with server := if s.stopFlag then .ended else .start }
  | .failLock => if s.free then some { s with server := .failClear } else none
  | .failClear => some { s with serverRunning := false, server := .failNotify }
  | .failNotify => some { s.wakeAll with server := .failUnlock }
  | .failUnlock => some { s with server := .ended }
  | .setRunning => some { s with serverRunning := true, server := .lock }
  | .lock => if s.free then some { s with server := .notify } else none
  | .check => some { s with server := if !s.running || s.stopFlag then .unlock else .sleep }
  | .sleep => some { s with server := .asleep }
  | .relock => if s.free then some { s with server := .check } else none
  | .unlock => some { s with server := .again }
  | .again => some { s with server := .stop s.stopFlag }
  | .stop leave => some { s with running := false, notified := true, server := .join leave }
  | .join leave => if s.accept = .ended then some { s with server := .clear leave } else none
  | .start | .notify | .asleep | .clear _ | .hung | .ended => none

/-- A step of `main`. -/
def mainNext (s : Program) : Option Program :=
  match s.main with
  | .lock | .relock => if s.free then some { s with main := .check } else none
  | .check => some { s with main := if s.serverRunning then .unlock else .sleep }
  | .sleep => some { s with main := .asleep }
  | .unlock => some { s with main := .console }
  | .console => some { s with main := .setStop }
  | .setStop => some { s with stopFlag := true, main := .notifyAll }
  | .notifyAll => some { s.wakeAll with main := .join }
  | .join => if s.server = .ended then some { s with main := .ended } else none
  | .asleep | .ended => none

/-- A step of the accept thread beside `notify_one`. -/
def acceptNext (s : Program) : Option Program :=
  match s.accept with
  | .test => some { s with accept := if s.running && !s.stopFlag then .waiting else .ended }
  | .waiting =>
    if s.notified then some { s with notified := false, running := false, accept := .test }
    else none
  | .lock => if s.free then some { s with accept := .clear } else none
  | .clear => some { s with running := false, accept := .notify }
  | .unlock => some { s with accept := .ended }
  | .notify | .ended => none

def next (s : Program) : ProgramStep → Option Program
  | .server => s.serverNext
  | .started ok =>
    if s.server = .start then
      if ok then
        some { s with running := true, notified := false, accept := .test, server := .setRunning }
      else some { s with server := .failLock }
    else none
  | .serverNotify w =>
    if s.server = .notify then { s with server := .check }.wakeOne w else none
  | .cleared ok => match s.server with
    | .clear leave =>
      some { s with server := if ok then (if leave then .ended else .test) else .hung }
    | _ => none
  | .main => s.mainNext
  | .accept => s.acceptNext
  | .acceptNotify w =>
    if s.accept = .notify then { s with accept := .unlock }.wakeOne w else none
  | .handlerNotify w =>
    if 0 < s.handlers then { s with handlers := s.handlers - 1 }.wakeOne w else none
  | .signal => some { s with stopFlag := true, handlers := s.handlers + 1 }
  | .accepted => if s.accept = .waiting then some { s with accept := .test } else none
  | .epollFails => if s.accept = .waiting then some { s with accept := .lock } else none
  | .spurious w => s.wake w

/-- The program after the start of the server thread. -/
def start : Program := ⟨false, false, false, false, 0, .test, .lock, .ended⟩

end Program

/-- The runs of the program. -/
def program : TransitionSystem Program ProgramStep where
  init s := s = .start
  next := Program.next

/-! ### Its invariant -/

/-- What holds of the shared data at each place of `Server_loop`: there is an accept
thread between `start` and the end of `join`, it is told to end by `stop` alone, and a
server that sleeps runs, or `notify_false` is about to wake it. -/
def ServerPc.Holds (s : Program) : ServerPc → Prop
  | test | start | failLock | failClear => s.accept = .ended
  | failNotify | failUnlock => s.accept = .ended ∧ s.serverRunning = false
  | setRunning => s.notified = false
  | lock | notify | check | relock | unlock | again =>
    s.notified = false ∧ s.serverRunning = true
  | sleep => s.notified = false ∧ s.serverRunning = true ∧ s.running = true
  | asleep =>
    s.notified = false ∧ s.serverRunning = true ∧ (s.running = true ∨ s.accept = .notify)
  | stop leave =>
    s.notified = false ∧ s.serverRunning = true ∧ (leave = true → s.stopFlag = true)
  | join leave =>
    s.running = false ∧ (s.accept = .waiting → s.notified = true) ∧
      s.serverRunning = true ∧ (leave = true → s.stopFlag = true)
  | clear leave =>
    s.accept = .ended ∧ s.serverRunning = true ∧ (leave = true → s.stopFlag = true)
  | hung => s.accept = .ended ∧ s.serverRunning = true
  | ended => s.accept = .ended ∧ (s.stopFlag = true ∨ s.serverRunning = false)

/-- The same for `main`. -/
def MainPc.Holds (s : Program) : MainPc → Prop
  | notifyAll | join => s.stopFlag = true
  | ended => s.stopFlag = true ∧ s.server = .ended
  | _ => True

namespace Program

variable {s t : Program} {l : ProgramStep}

/-- What holds of every state of the program.  `main` sleeps past the start of a
server only until `Server_loop` has notified it. -/
structure Inv (s : Program) : Prop where
  serverMain : s.server.inside = true → s.main.inside = false
  serverAccept : s.server.inside = true → s.accept.inside = false
  mainAccept : s.main.inside = true → s.accept.inside = false
  server : s.server.Holds s
  main : s.main.Holds s
  awake : s.main = .sleep ∨ s.main = .asleep → s.serverRunning = true →
    s.server = .lock ∨ s.server = .notify

/-- The mutex is free where no thread is past its lock. -/
theorem free_iff : s.free = true ↔
    s.server.inside = false ∧ s.main.inside = false ∧ s.accept.inside = false := by
  simp [free, and_assoc]

/-- Before `main`. -/
theorem inv_start : Inv .start where
  serverMain hin := by cases hin
  serverAccept hin := by cases hin
  mainAccept hin := by cases hin
  server := rfl
  main := trivial
  awake hmain := by simp [start] at hmain

/-! ### What a step of one thread keeps -/

/-- A step of `Server_loop` that holds or takes `mtx` where it is inside. -/
theorem Inv.of_server (h : Inv s) (hmain : t.main = s.main) (haccept : t.accept = s.accept)
    (hstop : t.stopFlag = s.stopFlag) (hserver : s.server ≠ .ended)
    (hin : t.server.inside = true → s.server.inside = true ∨ s.free = true)
    (hholds : t.server.Holds t) (hawake : t.main = .sleep ∨ t.main = .asleep →
      t.serverRunning = true → t.server = .lock ∨ t.server = .notify) : Inv t where
  serverMain hi := by
    rw [hmain]
    exact (hin hi).elim h.serverMain fun hfree => (free_iff.1 hfree).2.1
  serverAccept hi := by
    rw [haccept]
    exact (hin hi).elim h.serverAccept fun hfree => (free_iff.1 hfree).2.2
  mainAccept := by rw [hmain, haccept]; exact h.mainAccept
  server := hholds
  main := by
    have hm := h.main
    rw [hmain]
    cases hs : s.main <;> simp only [hs, MainPc.Holds, hstop, hserver, and_false] at hm ⊢ <;>
      assumption
  awake := hawake

/-- What the server relies on is kept by what raises `g_stop_flag`. -/
theorem holds_of_stopFlag {pc : ServerPc} (h : pc.Holds s) (haccept : t.accept = s.accept)
    (hnotified : t.notified = s.notified) (hrunning : t.running = s.running)
    (hserver : t.serverRunning = s.serverRunning)
    (hstop : s.stopFlag = true → t.stopFlag = true) : pc.Holds t := by
  cases pc <;> simp only [ServerPc.Holds, haccept, hnotified, hrunning, hserver] at h ⊢ <;> tauto

/-- A step of `main` that holds or takes `mtx` where it is inside. -/
theorem Inv.of_main (h : Inv s) (hserver : t.server = s.server) (haccept : t.accept = s.accept)
    (hnotified : t.notified = s.notified) (hrunning : t.running = s.running)
    (hserverRunning : t.serverRunning = s.serverRunning)
    (hstop : s.stopFlag = true → t.stopFlag = true)
    (hin : t.main.inside = true → s.main.inside = true ∨ s.free = true)
    (hholds : t.main.Holds t) (hawake : t.main = .sleep ∨ t.main = .asleep →
      t.serverRunning = true → t.server = .lock ∨ t.server = .notify) : Inv t where
  serverMain hi := by
    rw [hserver] at hi
    cases hm : t.main.inside with
    | false => rfl
    | true =>
      rcases hin hm with hs | hfree
      · exact absurd hs (by simp [h.serverMain hi])
      · exact absurd hi (by simp [(free_iff.1 hfree).1])
  serverAccept := by rw [hserver, haccept]; exact h.serverAccept
  mainAccept hi := by
    rw [haccept]
    exact (hin hi).elim h.mainAccept fun hfree => (free_iff.1 hfree).2.2
  server := by
    rw [hserver]
    exact holds_of_stopFlag h.server haccept hnotified hrunning hserverRunning hstop
  main := hholds
  awake := hawake

/-- A step of the accept thread that holds or takes `mtx` where it is inside. -/
theorem Inv.of_accept (h : Inv s) (hserver : t.server = s.server) (hmain : t.main = s.main)
    (hstop : t.stopFlag = s.stopFlag) (hserverRunning : t.serverRunning = s.serverRunning)
    (hin : t.accept.inside = true → s.accept.inside = true ∨ s.free = true)
    (hholds : s.server.Holds t) : Inv t where
  serverMain := by rw [hserver, hmain]; exact h.serverMain
  serverAccept hi := by
    rw [hserver] at hi
    cases ha : t.accept.inside with
    | false => rfl
    | true =>
      rcases hin ha with hs | hfree
      · exact absurd hs (by simp [h.serverAccept hi])
      · exact absurd hi (by simp [(free_iff.1 hfree).1])
  mainAccept hi := by
    rw [hmain] at hi
    cases ha : t.accept.inside with
    | false => rfl
    | true =>
      rcases hin ha with hs | hfree
      · exact absurd hs (by simp [h.mainAccept hi])
      · exact absurd hi (by simp [(free_iff.1 hfree).2.1])
  server := by rw [hserver]; exact hholds
  main := by
    have hm := h.main
    rw [hmain]
    cases hs : s.main <;> simp only [hs, MainPc.Holds, hstop, hserver] at hm ⊢ <;> assumption
  awake := by rw [hmain, hserverRunning, hserver]; exact h.awake

/-- What the server relies on is kept by a step of an accept thread that does not stop a
server about to sleep, and leaves one that sleeps only to `notify_false`. -/
theorem holds_of_accept {pc : ServerPc} (h : pc.Holds s) (haccept : s.accept ≠ .ended)
    (hstop : t.stopFlag = s.stopFlag) (hserver : t.serverRunning = s.serverRunning)
    (hnotified : t.notified = s.notified) (hrunning : t.running = true → s.running = true)
    (hsleep : pc = .sleep → s.running = true → t.running = true)
    (hasleep : pc = .asleep → s.running = true ∨ s.accept = .notify →
      t.running = true ∨ t.accept = .notify)
    (hwaiting : s.running = false → t.accept = .waiting → s.accept = .waiting) :
    pc.Holds t := by
  cases pc with
  | test | start | failLock | failClear => exact absurd h haccept
  | failNotify | failUnlock | clear | hung | ended => exact absurd h.1 haccept
  | setRunning => exact hnotified.trans h
  | lock | notify | check | relock | unlock | again =>
    exact ⟨hnotified.trans h.1, hserver.trans h.2⟩
  | sleep => exact ⟨hnotified.trans h.1, hserver.trans h.2.1, hsleep rfl h.2.2⟩
  | asleep => exact ⟨hnotified.trans h.1, hserver.trans h.2.1, hasleep rfl h.2.2⟩
  | stop leave => exact ⟨hnotified.trans h.1, hserver.trans h.2.1, hstop ▸ h.2.2⟩
  | join leave =>
    obtain ⟨hend, htold, hrun, hleave⟩ := h
    refine ⟨Bool.eq_false_iff.2 fun ht => ?_, fun ha => ?_, hserver.trans hrun, hstop ▸ hleave⟩
    · simp [hrunning ht] at hend
    · exact hnotified.trans (htold (hwaiting hend ha))

/-- Only the join tells an accept thread to end. -/
theorem Inv.join_of_notified (h : Inv s) (hnotified : s.notified = true)
    (haccept : s.accept ≠ .ended) : s.running = false ∧ ∃ leave, s.server = .join leave := by
  have hholds := h.server
  cases hs : s.server <;> simp_all [ServerPc.Holds]

/-! ### The wakeups -/

/-- A sleeper that wakes takes the mutex itself. -/
theorem inv_wake (h : Inv s) {w : Sleeper} (hw : s.wake w = some t) : Inv t := by
  cases w with
  | server =>
    simp only [wake, Option.ite_none_right_eq_some, Option.some.injEq] at hw
    obtain ⟨hs, rfl⟩ := hw
    have hholds := h.server
    have hawake := h.awake
    simp only [hs, ServerPc.Holds] at hholds hawake
    refine h.of_server rfl rfl rfl (by simp [hs]) (fun hin => by cases hin)
      ⟨hholds.1, hholds.2.1⟩ fun hm hr => by simpa using hawake hm hr
  | main =>
    simp only [wake, Option.ite_none_right_eq_some, Option.some.injEq] at hw
    obtain ⟨hs, rfl⟩ := hw
    exact h.of_main rfl rfl rfl rfl rfl id (fun hin => by cases hin) trivial
      fun hm => by simp at hm

/-- `notify_one` wakes one, or nobody. -/
theorem inv_wakeOne (h : Inv s) {w : Option Sleeper} (hw : s.wakeOne w = some t) : Inv t := by
  cases w with
  | none =>
    simp only [wakeOne, Option.ite_none_right_eq_some, Option.some.injEq] at hw
    exact hw.2 ▸ h
  | some w => exact inv_wake h hw

/-- `notify_all` wakes both. -/
theorem inv_wakeAll (h : Inv s) : Inv s.wakeAll := by
  have hmain : Inv { s with main := if s.main = .asleep then .relock else s.main } := by
    split
    · rename_i hs
      exact inv_wake h (w := .main) (if_pos hs)
    · exact h
  rw [wakeAll]
  split
  · rename_i hs
    exact inv_wake hmain (w := .server) (if_pos hs)
  · exact hmain

/-! ### The steps -/

/-- `Server_loop` keeps it. -/
theorem inv_serverNext (h : Inv s) (hn : s.serverNext = some t) : Inv t := by
  have hholds := h.server
  have hawake := h.awake
  cases hs : s.server <;> simp only [serverNext, hs, ServerPc.Holds, Option.some.injEq,
    reduceCtorEq, Option.ite_none_right_eq_some] at hn hholds
  case failLock | lock | relock =>
    obtain ⟨hfree, rfl⟩ := hn
    refine h.of_server rfl rfl rfl (by simp [hs]) (fun _ => .inr hfree) hholds ?_
    grind -ring -linarith
  case failNotify =>
    subst hn
    have hserver : s.wakeAll.server = .failNotify := by simp [wakeAll, hs]
    refine (inv_wakeAll h).of_server rfl rfl rfl (by simp [hserver])
      (fun _ => .inl (by rw [hserver]; rfl)) ?_ ?_
    · exact hholds
    · grind -ring -linarith [wakeAll]
  case join leave =>
    obtain ⟨haccept, rfl⟩ := hn
    refine h.of_server rfl rfl rfl (by simp [hs]) ?_ ?_ ?_ <;>
      grind -ring -linarith [ServerPc.inside, ServerPc.Holds]
  all_goals
    subst hn
    refine h.of_server rfl rfl rfl (by simp [hs]) ?_ ?_ ?_ <;>
      grind -ring -linarith [ServerPc.inside, ServerPc.Holds]

/-- `main` keeps it. -/
theorem inv_mainNext (h : Inv s) (hn : s.mainNext = some t) : Inv t := by
  have hholds := h.main
  have hawake := h.awake
  cases hs : s.main <;> simp only [mainNext, hs, MainPc.Holds, Option.some.injEq,
    reduceCtorEq, Option.ite_none_right_eq_some] at hn hholds
  case notifyAll =>
    subst hn
    have hmain : s.wakeAll.main = .notifyAll := by simp [wakeAll, hs]
    exact (inv_wakeAll h).of_main rfl rfl rfl rfl rfl id (fun hin => by cases hin) hholds
      fun hm => by simp at hm
  case lock | relock =>
    obtain ⟨hfree, rfl⟩ := hn
    exact h.of_main rfl rfl rfl rfl rfl id (fun _ => .inr hfree) trivial fun hm => by simp at hm
  case join =>
    obtain ⟨hserver, rfl⟩ := hn
    exact h.of_main rfl rfl rfl rfl rfl id (fun hin => by cases hin) ⟨hholds, hserver⟩
      fun hm => by simp at hm
  all_goals
    subst hn
    refine h.of_main rfl rfl rfl rfl rfl ?_ ?_ ?_ ?_ <;>
      grind -ring -linarith [MainPc.inside, MainPc.Holds]

/-- `accept_loop` keeps it. -/
theorem inv_acceptNext (h : Inv s) (hn : s.acceptNext = some t) : Inv t := by
  have hholds := h.server
  cases hs : s.accept <;> simp only [acceptNext, hs, Option.some.injEq,
    reduceCtorEq, Option.ite_none_right_eq_some] at hn
  case test =>
    subst hn
    refine h.of_accept rfl rfl rfl rfl (fun hi => ?_) (holds_of_accept hholds (by simp [hs])
      rfl rfl rfl id (fun _ => id) (fun _ => by simp [hs]; exact .inl) fun hend => by simp [hend])
    split at hi <;> cases hi
  case waiting =>
    -- `stop` has told the thread, so the server is at its join
    obtain ⟨hnotified, rfl⟩ := hn
    obtain ⟨-, leave, hserver⟩ := h.join_of_notified hnotified (by simp [hs])
    simp only [hserver, ServerPc.Holds] at hholds
    refine h.of_accept rfl rfl rfl rfl (fun hi => by cases hi) ?_
    rw [hserver]
    exact ⟨rfl, fun ha => (by cases ha), hholds.2.2⟩
  case lock =>
    obtain ⟨hfree, rfl⟩ := hn
    exact h.of_accept rfl rfl rfl rfl (fun _ => .inr hfree) (holds_of_accept hholds (by simp [hs])
      rfl rfl rfl id (fun _ => id) (fun _ => by simp [hs]) fun _ ha => by cases ha)
  case clear =>
    subst hn
    have hsleep : s.server ≠ .sleep := fun hserver => by
      have houtside := h.serverAccept (by rw [hserver]; rfl)
      rw [hs] at houtside
      cases houtside
    exact h.of_accept rfl rfl rfl rfl (fun _ => .inl (by rw [hs]; rfl))
      (holds_of_accept hholds (by simp [hs]) rfl rfl rfl (fun ht => by cases ht)
        (fun hserver => absurd hserver hsleep) (fun _ _ => .inr rfl) fun _ ha => by cases ha)
  case unlock =>
    subst hn
    exact h.of_accept rfl rfl rfl rfl (fun hi => by cases hi) (holds_of_accept hholds
      (by simp [hs]) rfl rfl rfl id (fun _ => id) (fun _ => by simp [hs]) fun _ ha => by cases ha)

/-- `main` does not sleep while `Server_loop` sleeps. -/
theorem Inv.main_ne_asleep (h : Inv s) (hs : s.server = .asleep) : s.main ≠ .asleep := by
  have hholds := h.server
  have hawake := h.awake
  simp only [hs, ServerPc.Holds] at hholds hawake
  intro hm
  simpa using hawake (.inr hm) hholds.2.1

/-- `start` succeeds or fails. -/
theorem inv_started (h : Inv s) {ok : Bool} (hn : s.next (.started ok) = some t) : Inv t := by
  rw [next, Option.ite_none_right_eq_some] at hn
  obtain ⟨hs, hn⟩ := hn
  have hholds := h.server
  have hawake : s.main = .sleep ∨ s.main = .asleep → ¬ s.serverRunning = true := by
    intro hm hr
    simpa [hs] using h.awake hm hr
  rw [hs] at hholds
  cases ok with
  | false =>
    obtain rfl := Option.some.inj hn
    exact h.of_server rfl rfl rfl (by simp [hs]) (fun hi => by cases hi) hholds
      fun hm hr => absurd hr (hawake hm)
  | true =>
    obtain rfl := Option.some.inj hn
    have hstarted : Inv { s with running := true, notified := false, server := .setRunning } :=
      h.of_server rfl rfl rfl (by simp [hs]) (fun hi => by cases hi) rfl
        fun hm hr => absurd hr (hawake hm)
    exact hstarted.of_accept rfl rfl rfl rfl (fun hi => by cases hi) rfl

/-- `workers.clear()` returns or hangs. -/
theorem inv_cleared (h : Inv s) {ok : Bool} (hn : s.next (.cleared ok) = some t) : Inv t := by
  have hholds := h.server
  cases hs : s.server <;> simp only [next, hs, Option.some.injEq, reduceCtorEq] at hn
  case clear leave =>
    simp only [hs, ServerPc.Holds] at hholds
    obtain ⟨haccept, hrunning, hleave⟩ := hholds
    subst hn
    refine h.of_server rfl rfl rfl (by simp [hs]) (fun hin => ?_) ?_ fun hm hr => ?_
    · cases ok <;> cases leave <;> cases hin
    · cases ok with
      | false => exact ⟨haccept, hrunning⟩
      | true =>
        cases leave with
        | false => exact haccept
        | true => exact ⟨haccept, .inl (hleave rfl)⟩
    · simpa [hs] using h.awake hm hr

/-- The notification of `Server_loop`. -/
theorem inv_serverNotify (h : Inv s) {w : Option Sleeper}
    (hn : s.next (.serverNotify w) = some t) : Inv t := by
  simp only [next, Option.ite_none_right_eq_some] at hn
  obtain ⟨hs, hn⟩ := hn
  have hholds := h.server
  have hmain : s.main.inside = false := h.serverMain (by rw [hs]; rfl)
  simp only [hs, ServerPc.Holds] at hholds
  cases w with
  | none =>
    simp only [wakeOne, Option.ite_none_right_eq_some, Option.some.injEq] at hn
    obtain ⟨⟨-, hasleep⟩, rfl⟩ := hn
    refine h.of_server rfl rfl rfl (by simp [hs]) (fun _ => .inl (by rw [hs]; rfl)) hholds ?_
    rintro (hm | hm) -
    · replace hm : s.main = .sleep := hm
      rw [hm] at hmain
      cases hmain
    · exact absurd hm hasleep
  | some w =>
    cases w with
    | server => simp [wakeOne, wake] at hn
    | main =>
      simp only [wakeOne, wake, Option.ite_none_right_eq_some, Option.some.injEq] at hn
      obtain ⟨hm, rfl⟩ := hn
      have hwoken : Inv { s with main := .relock } := inv_wake h (w := .main) (if_pos hm)
      exact hwoken.of_server rfl rfl rfl (by simp [hs]) (fun _ => .inl (by rw [hs]; rfl)) hholds
        fun hm => by simp at hm

/-- The notification of `notify_false`. -/
theorem inv_acceptNotify (h : Inv s) {w : Option Sleeper}
    (hn : s.next (.acceptNotify w) = some t) : Inv t := by
  simp only [next, Option.ite_none_right_eq_some] at hn
  obtain ⟨hs, hn⟩ := hn
  -- With the server awake `notify_false` may go on.
  have hunlock : ∀ {u : Program}, Inv u → u.accept = .notify → u.server ≠ .asleep →
      Inv { u with accept := .unlock } := by
    intro u hu haccept hserver
    exact hu.of_accept rfl rfl rfl rfl (fun _ => .inl (by rw [haccept]; rfl))
      (holds_of_accept hu.server (by simp [haccept]) rfl rfl rfl id (fun _ => id)
        (fun hs => absurd hs hserver) fun _ ha => by cases ha)
  cases w with
  | none =>
    simp only [wakeOne, Option.ite_none_right_eq_some, Option.some.injEq] at hn
    obtain ⟨⟨hserver, -⟩, rfl⟩ := hn
    exact hunlock h hs hserver
  | some w =>
    cases w with
    | server =>
      simp only [wakeOne, wake, Option.ite_none_right_eq_some, Option.some.injEq] at hn
      obtain ⟨hserver, rfl⟩ := hn
      exact hunlock (inv_wake h (w := .server) (if_pos hserver)) hs (by simp)
    | main =>
      have hserver : s.server ≠ .asleep := by
        intro hserver
        simp only [wakeOne, wake, Option.ite_none_right_eq_some] at hn
        exact h.main_ne_asleep hserver hn.1
      exact inv_wakeOne (hunlock h hs hserver) hn

/-- **Every step keeps the invariant.** -/
theorem inv_next (h : Inv s) (hn : s.next l = some t) : Inv t := by
  cases l with
  | server => exact inv_serverNext h hn
  | main => exact inv_mainNext h hn
  | accept => exact inv_acceptNext h hn
  | spurious w => exact inv_wake h hn
  | started ok => exact inv_started h hn
  | serverNotify w => exact inv_serverNotify h hn
  | cleared ok => exact inv_cleared h hn
  | acceptNotify w => exact inv_acceptNotify h hn
  | handlerNotify w =>
    simp only [next, Option.ite_none_right_eq_some] at hn
    have hlater : Inv { s with handlers := s.handlers - 1 } :=
      h.of_main rfl rfl rfl rfl rfl id .inl h.main h.awake
    exact inv_wakeOne hlater hn.2
  | signal =>
    obtain rfl := Option.some.inj hn
    refine h.of_main rfl rfl rfl rfl rfl (fun _ => rfl) .inl ?_ h.awake
    have hholds := h.main
    cases hs : s.main <;> simp_all [MainPc.Holds]
  | accepted =>
    simp only [next, Option.ite_none_right_eq_some, Option.some.injEq] at hn
    obtain ⟨hs, rfl⟩ := hn
    exact h.of_accept rfl rfl rfl rfl (fun hi => by cases hi) (holds_of_accept h.server
      (by simp [hs]) rfl rfl rfl id (fun _ => id) (fun _ => by simp [hs]) fun _ ha => by cases ha)
  | epollFails =>
    simp only [next, Option.ite_none_right_eq_some, Option.some.injEq] at hn
    obtain ⟨hs, rfl⟩ := hn
    exact h.of_accept rfl rfl rfl rfl (fun hi => by cases hi) (holds_of_accept h.server
      (by simp [hs]) rfl rfl rfl id (fun _ => id) (fun _ => by simp [hs]) fun _ ha => by cases ha)

/-- **The invariant holds through every run.** -/
theorem inv_of_reachable (hs : program.Reachable anyStep s) : Inv s := by
  induction hs with
  | init hinit =>
    cases (show _ = start from hinit)
    exact inv_start
  | step _ _ hn h => exact inv_next h hn

end Program
end Server
end WeakAyas
